/-!
# Double-precision numbers

The binary numbers in which fractions are kept: a sign, 53 significant bits and
an exponent. All arithmetic here is exact on ratios of natural numbers and is
rounded once, to the nearest number and to the even one of two.
-/

namespace ContextDb.Decimal

/-- A double-precision number by its stored form. -/
structure Binary64 where
  bits : UInt64
  deriving DecidableEq, Repr, Inhabited

namespace Binary64

/-- Whether the sign is negative. -/
def isNegative (x : Binary64) : Bool :=
  x.bits.toNat / Nat.pow 2 63 == 1

/-- The stored exponent. -/
def exponentField (x : Binary64) : Nat :=
  x.bits.toNat / Nat.pow 2 52 % Nat.pow 2 11

/-- The stored fraction. -/
def fraction (x : Binary64) : Nat :=
  x.bits.toNat % Nat.pow 2 52

/-- Whether the number is neither infinite nor undefined. -/
def isFinite (x : Binary64) : Bool :=
  x.exponentField != 2047

/-- The significand of a finite number: its magnitude is the significand times
two to the power of `scale`. -/
def significand (x : Binary64) : Nat :=
  if x.exponentField = 0 then x.fraction else Nat.pow 2 52 + x.fraction

/-- The power of two that belongs to the significand. -/
def scale (x : Binary64) : Int :=
  (max x.exponentField 1 : Nat) - 1075

/-- The number with a given sign and stored magnitude. -/
def ofMagnitude (negative : Bool) (magnitude : Nat) : Binary64 :=
  ⟨((if negative then Nat.pow 2 63 else 0) + magnitude).toUInt64⟩

/-- Positive infinity as a stored magnitude. -/
def infiniteMagnitude : Nat :=
  2047 * Nat.pow 2 52

/-- Zero of either sign. -/
def zero (negative : Bool) : Binary64 :=
  ofMagnitude negative 0

/-- Whether the number is zero of either sign. -/
def isZero (x : Binary64) : Bool :=
  x.bits.toNat % Nat.pow 2 63 == 0

/-- The quotient of two natural numbers, rounded to the nearest integer and to
the even one of two. -/
def roundedQuotient (numerator denominator : Nat) : Nat :=
  let quotient := numerator / denominator
  let twice := 2 * (numerator % denominator)
  if twice < denominator then quotient
  else if twice = denominator then quotient + quotient % 2
  else quotient + 1

/-- A ratio times a power of two, as a ratio. -/
def shifted (numerator denominator : Nat) (power : Int) : Nat × Nat :=
  if 0 ≤ power then (numerator * Nat.pow 2 power.toNat, denominator)
  else (numerator, denominator * Nat.pow 2 (-power).toNat)

/-- The stored magnitude nearest to a positive ratio that is rounded to multiples
of two to the power `scale`. -/
def magnitudeAt (numerator denominator : Nat) (scale : Int) : Nat :=
  let (top, bottom) := shifted numerator denominator (-scale)
  let rounded := roundedQuotient top bottom
  let (significand, scale) :=
    if Nat.pow 2 53 ≤ rounded then (rounded / 2, scale + 1) else (rounded, scale)
  if scale > 971 then infiniteMagnitude
  else if significand < Nat.pow 2 52 then significand
  else (scale + 1075).toNat * Nat.pow 2 52 + (significand - Nat.pow 2 52)

/-- The stored magnitude nearest to a ratio. -/
def magnitudeOfRatio (numerator denominator : Nat) : Nat :=
  if numerator = 0 then 0
  else
    let guess : Int := (numerator.log2 : Int) - denominator.log2 - 53
    let (top, bottom) := shifted numerator denominator (-guess)
    let scale := if Nat.pow 2 53 ≤ top / bottom then guess + 1 else guess
    magnitudeAt numerator denominator (max scale (-1074))

/-- The number nearest to a ratio with a given sign. -/
def ofRatio (negative : Bool) (numerator denominator : Nat) : Binary64 :=
  ofMagnitude negative (magnitudeOfRatio numerator denominator)

/-- The number nearest to a natural number. -/
def ofNat (n : Nat) : Binary64 :=
  ofRatio false n 1

/-- The magnitude of a finite number as a ratio. -/
def ratio (x : Binary64) : Nat × Nat :=
  shifted x.significand 1 x.scale

/-- The product of the magnitudes of two finite numbers. -/
def mulMagnitudes (x y : Binary64) : Binary64 :=
  let (a, b) := x.ratio
  let (c, d) := y.ratio
  ofRatio false (a * c) (b * d)

/-- The quotient of the magnitudes of two finite numbers. -/
def divMagnitudes (x y : Binary64) : Binary64 :=
  let (a, b) := x.ratio
  let (c, d) := y.ratio
  ofRatio false (a * d) (b * c)

/-- A number with a given sign. -/
def withSign (negative : Bool) (x : Binary64) : Binary64 :=
  ofMagnitude negative (x.bits.toNat % Nat.pow 2 63)

/-- A natural number rounded to the 24 significant bits of single precision. -/
def singleRounded (n : Nat) : Nat :=
  let unit := Nat.pow 2 (n.log2 + 1 - 24)
  roundedQuotient n unit * unit

end Binary64

end ContextDb.Decimal
