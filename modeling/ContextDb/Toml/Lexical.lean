import ContextDb.Text.Hex
import ContextDb.Text.Split

/-!
# The words of TOML

Reading blanks, comments, keys and strings of a TOML text. Each reader takes the
text from where its word begins and gives the word and the text after it, or
nothing if the word is malformed.
-/

namespace ContextDb.Toml

open Text

/-- A reader of a part of a text. -/
abbrev Reader (α : Type) := List Char → Option (α × List Char)

/-- Whether a character may stand between words of a line. -/
def isBlank (c : Char) : Bool :=
  c = ' ' || c = '\t'

/-- The text after blanks. -/
def skipBlank (text : List Char) : List Char :=
  text.dropWhile isBlank

/-- Whether a character may stand for itself within a line. -/
def isPlain (c : Char) : Bool :=
  c = '\t' || (0x20 ≤ c.toNat && c.toNat ≠ 0x7F)

/-- The text after the end of a line, if a line ends here. -/
def newline? : List Char → Option (List Char)
  | '\n' :: rest => some rest
  | '\r' :: '\n' :: rest => some rest
  | _ => none

/-- The text after a comment, if one begins here. -/
def skipComment (text : List Char) : List Char :=
  match text with
  | '#' :: rest => rest.dropWhile isPlain
  | _ => text

/-- The text after the end of a line that may only hold a comment. -/
def lineEnd? (text : List Char) : Option (List Char) :=
  match skipComment (skipBlank text) with
  | [] => some []
  | rest => newline? rest

/-- The text after blanks, comments and ends of lines. -/
def skipSpace : Nat → List Char → List Char
  | 0, text => text
  | fuel + 1, text =>
    match text with
    | ' ' :: rest | '\t' :: rest => skipSpace fuel rest
    | '#' :: rest => skipSpace fuel (rest.dropWhile isPlain)
    | _ =>
      match newline? text with
      | some rest => skipSpace fuel rest
      | none => text

/-- The character with a code point, if there is one. -/
def charOfCode? (code : Nat) : Option Char :=
  if code < 0xD800 || (0xDFFF < code && code < 0x110000) then some (Char.ofNat code) else none

/-- The character that hexadecimal digits stand for. -/
def charOfDigits? (digits : List Char) : Option Char :=
  (digits.foldlM (fun value c => (hexDigitValue? c).map (value * 16 + ·)) 0).bind charOfCode?

/-- The character that a one-letter escape stands for. -/
def escaped? (letter : Char) : Option Char :=
  if letter = 'b' then some '\x08'
  else if letter = 't' then some '\t'
  else if letter = 'n' then some '\n'
  else if letter = 'f' then some '\x0C'
  else if letter = 'r' then some '\r'
  else if letter = '"' then some '"'
  else if letter = '\\' then some '\\'
  else none

/-- Whether a line ends here, blanks apart. -/
def endsLine (text : List Char) : Bool :=
  (newline? (skipBlank text)).isSome

/-- How a string between double quotes is read: on one line, on several, or on
several and skipping to the next character that shows. -/
inductive QuoteMode where
  | line
  | lines
  | skipping
  deriving DecidableEq

/-- The characters of a string between double quotes, collected in reverse, up to
the quotes that close it. Up to two quotes may stand before those that close a
string of several lines. -/
def readQuoted (mode : QuoteMode) (reversed : List Char) : Reader (List Char)
  | [] => none
  | '"' :: rest =>
    if mode = .line then some (reversed.reverse, rest)
    else
      match rest with
      | '"' :: '"' :: rest =>
        match rest with
        | '"' :: '"' :: rest => some (('"' :: '"' :: reversed).reverse, rest)
        | '"' :: rest => some (('"' :: reversed).reverse, rest)
        | rest => some (reversed.reverse, rest)
      | rest => readQuoted .lines ('"' :: reversed) rest
  | '\\' :: rest =>
    let mode := if mode = .skipping then .lines else mode
    match rest with
    | 'u' :: a :: b :: c :: d :: rest =>
      match charOfDigits? [a, b, c, d] with
      | some char => readQuoted mode (char :: reversed) rest
      | none => none
    | 'U' :: a :: b :: c :: d :: e :: f :: g :: h :: rest =>
      match charOfDigits? [a, b, c, d, e, f, g, h] with
      | some char => readQuoted mode (char :: reversed) rest
      | none => none
    | letter :: rest =>
      match escaped? letter with
      | some char => readQuoted mode (char :: reversed) rest
      | none =>
        if mode = .lines && endsLine (letter :: rest) then
          if letter = '\r' then
            match rest with
            | _ :: rest => readQuoted .skipping reversed rest
            | [] => none
          else readQuoted .skipping reversed rest
        else none
    | [] => none
  | '\r' :: rest =>
    match rest with
    | '\n' :: rest =>
      if mode = .line then none
      else readQuoted mode (if mode = .skipping then reversed else '\n' :: reversed) rest
    | _ => none
  | '\n' :: rest =>
    if mode = .line then none
    else readQuoted mode (if mode = .skipping then reversed else '\n' :: reversed) rest
  | c :: rest =>
    if mode = .skipping && isBlank c then readQuoted .skipping reversed rest
    else if isPlain c then
      readQuoted (if mode = .skipping then .lines else mode) (c :: reversed) rest
    else none

/-- The characters of a string between single quotes, up to the quotes that close
it. -/
def readLiteral (many : Bool) (reversed : List Char) : Reader (List Char)
  | [] => none
  | '\x27' :: rest =>
    if !many then some (reversed.reverse, rest)
    else
      match rest with
      | '\x27' :: '\x27' :: rest =>
        match rest with
        | '\x27' :: '\x27' :: rest => some (('\x27' :: '\x27' :: reversed).reverse, rest)
        | '\x27' :: rest => some (('\x27' :: reversed).reverse, rest)
        | rest => some (reversed.reverse, rest)
      | rest => readLiteral many ('\x27' :: reversed) rest
  | '\r' :: rest =>
    match rest with
    | '\n' :: rest => if many then readLiteral many ('\n' :: reversed) rest else none
    | _ => none
  | '\n' :: rest => if many then readLiteral many ('\n' :: reversed) rest else none
  | c :: rest => if isPlain c then readLiteral many (c :: reversed) rest else none

/-- A text without the end of a line right at its beginning. -/
def skipFirstNewline (text : List Char) : List Char :=
  (newline? text).getD text

/-- A string on one line. -/
def readLineString : Reader String
  | '"' :: rest => (readQuoted .line [] rest).map fun (text, rest) => (String.ofList text, rest)
  | '\x27' :: rest =>
    (readLiteral false [] rest).map fun (text, rest) => (String.ofList text, rest)
  | _ => none

/-- A string. -/
def readString : Reader String
  | '"' :: '"' :: '"' :: rest =>
    (readQuoted .lines [] (skipFirstNewline rest)).map fun (text, rest) =>
      (String.ofList text, rest)
  | '\x27' :: '\x27' :: '\x27' :: rest =>
    (readLiteral true [] (skipFirstNewline rest)).map fun (text, rest) =>
      (String.ofList text, rest)
  | text => readLineString text

/-- Whether a character may stand in a key without quotes. -/
def isBare (c : Char) : Bool :=
  c.isAlphanum || c = '-' || c = '_'

/-- One part of a key. -/
def readKeyPart : Reader String := fun text =>
  match text with
  | '"' :: _ | '\x27' :: _ => readLineString text
  | _ =>
    let bare := text.takeWhile isBare
    if bare.isEmpty then none else some (String.ofList bare, text.dropWhile isBare)

/-- The number of parts that a key may not reach. -/
def nestingLimit : Nat := 80

/-- The parts of a key, with points and blanks between them. -/
def readKeyParts : Nat → List String → Reader (List String)
  | 0, _, _ => none
  | fuel + 1, reversed, text =>
    match readKeyPart (skipBlank text) with
    | none => none
    | some (part, rest) =>
      match skipBlank rest with
      | '.' :: rest => readKeyParts fuel (part :: reversed) rest
      | rest => some ((part :: reversed).reverse, rest)

/-- A key and the blanks around it. -/
def readKey : Reader (List String) :=
  readKeyParts (nestingLimit - 1) []

end ContextDb.Toml
