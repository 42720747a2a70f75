import ContextDb.Decimal.Shortest

/-!
# Decimal text without an exponent

A number is written out with all its places: the shortest digits from which it can be
read back, filled up with zeros as far as the point or from there on.
-/

namespace ContextDb.Decimal

/-- Digits with the point after the first `whole` of them. There is none if nothing
follows it. -/
def spread (digits : List Char) (whole : Int) : List Char :=
  if whole ≤ 0 then ['0', '.'] ++ List.replicate (-whole).toNat '0' ++ digits
  else if digits.length ≤ whole.toNat then
    digits ++ List.replicate (whole.toNat - digits.length) '0'
  else digits.take whole.toNat ++ ['.'] ++ digits.drop whole.toNat

/-- The text of a number. -/
def plain (x : Binary64) : String :=
  let sign := if x.isNegative then ['-'] else []
  if !x.isFinite then
    if x.fraction = 0 then String.ofList (sign ++ ['i', 'n', 'f']) else "NaN"
  else if x.isZero then String.ofList (sign ++ ['0'])
  else
    let (digits, exponent) := shortest x
    String.ofList (sign ++ spread digits (exponent + 1))

end ContextDb.Decimal
