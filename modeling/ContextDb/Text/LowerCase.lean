import ContextDb.Text.CaseContext
import ContextDb.Text.LowerImage

/-!
# Lower case

The lower-case form of a text in every script. All characters but two change
on their own: the dotted capital I becomes two characters, and a capital sigma
depends on the letters around it.
-/

namespace ContextDb.Text

/-- Whether the nearest character that is not case-ignorable is cased. -/
def casedNearby (neighbours : List Char) : Bool :=
  match neighbours.dropWhile isCaseIgnorable with
  | [] => false
  | c :: _ => isCased c

/-- The lower-case form of a character between the text before it, nearest
character first, and the text after it. A sigma is final if it ends a word. -/
def lowerChar (before : List Char) (c : Char) (after : List Char) : List Char :=
  if c = '\u03A3' then
    if casedNearby before && !casedNearby after then ['\u03C2'] else ['\u03C3']
  else if c = '\u0130' then ['i', '\u0307']
  else [lowerImage c]

/-- Lower a text from left to right, collecting the result in reverse. -/
def lowerFrom (before collected : List Char) : List Char → List Char
  | [] => collected.reverse
  | c :: after =>
    lowerFrom (c :: before) ((lowerChar before c after).reverse ++ collected) after

/-- The lower-case form of a text. -/
def lower (text : List Char) : List Char :=
  lowerFrom [] [] text

end ContextDb.Text
