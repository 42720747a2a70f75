/-!
# Pieces and lines

Cutting a text at separators. Nothing but the separators is lost: a text with
`n` separators has `n + 1` pieces, some of which may be empty.
-/

namespace ContextDb.Text

/-- Put a character in front of the first piece. -/
def extendFirst (c : Char) : List (List Char) → List (List Char)
  | [] => [[c]]
  | piece :: rest => (c :: piece) :: rest

/-- The pieces of a text between the characters that separate. -/
def piecesBy (separates : Char → Bool) (text : List Char) : List (List Char) :=
  text.foldr (fun c rest => if separates c then [] :: rest else extendFirst c rest) [[]]

/-- The pieces of a text between occurrences of one character. -/
def pieces (separator : Char) (text : List Char) : List (List Char) :=
  piecesBy (· == separator) text

/-- Texts with one separator between each two of them. -/
def joinWith (separator : List Char) : List (List Char) → List Char
  | [] => []
  | first :: rest => first ++ rest.flatMap (separator ++ ·)

/-- The part of a text before the last occurrence of a character. -/
def beforeLast? (separator : Char) (text : List Char) : Option (List Char) :=
  match text.reverse.dropWhile (· != separator) with
  | [] => none
  | _ :: before => some before.reverse

/-- The part of a text after the last occurrence of a character; the whole text
if the character does not occur. -/
def afterLast (separator : Char) (text : List Char) : List Char :=
  (text.reverse.takeWhile (· != separator)).reverse

/-- The parts of a text before and after the first occurrence of a character. -/
def cutAt? (separator : Char) (text : List Char) : Option (List Char × List Char) :=
  match text.dropWhile (· != separator) with
  | [] => none
  | _ :: after => some (text.takeWhile (· != separator), after)

/-- A line without the carriage return that belongs to its line feed. -/
def dropReturn (line : List Char) : List Char :=
  if line.getLast? = some '\r' then line.dropLast else line

/-- The lines of a text. A line feed ends a line, together with a carriage
return right before it; a last line needs no line feed, and none begins after
the final one. -/
def lines (text : List Char) : List (List Char) :=
  let all := pieces '\n' text
  let last := all.getLast?.getD []
  all.dropLast.map dropReturn ++ (if last.isEmpty then [] else [last])

end ContextDb.Text
