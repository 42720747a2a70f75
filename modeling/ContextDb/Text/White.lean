import ContextDb.Text.Split

/-!
# White space

The characters with the property White_Space, what is left of a text when they
are cut from its ends, and the words between them.
-/

namespace ContextDb.Text

/-- Whether a character is white space in any script. -/
def isWhite (c : Char) : Bool :=
  let code := c.toNat
  (9 ≤ code && code ≤ 13) || code == 0x20 || code == 0x85 || code == 0xA0 || code == 0x1680 ||
    (0x2000 ≤ code && code ≤ 0x200A) || code == 0x2028 || code == 0x2029 || code == 0x202F ||
    code == 0x205F || code == 0x3000

/-- A text without the leading and trailing characters of a class. -/
def trimBy (skip : Char → Bool) (text : List Char) : List Char :=
  (((text.dropWhile skip).reverse).dropWhile skip).reverse

/-- A text without leading and trailing white space. -/
def trim (text : List Char) : List Char :=
  trimBy isWhite text

/-- The non-empty stretches of a text between white space. -/
def words (text : List Char) : List (List Char) :=
  (piecesBy isWhite text).filter (!·.isEmpty)

/-- A text without the trailing characters of a class. -/
def trimEndBy (skip : Char → Bool) (text : List Char) : List Char :=
  ((text.reverse).dropWhile skip).reverse

end ContextDb.Text
