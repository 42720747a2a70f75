import ContextDb.Decimal.Binary64

/-!
# Shortest decimal text

A finite double-precision number is written with the fewest decimal digits from
which it can be read back, and with the nearest such digits among those. The
numbers that read back as a given one form an interval around it; the search
tests the two neighbours of the number on decimal grids of growing fineness.
-/

namespace ContextDb.Decimal

/-- A decimal number: its digits, read as an integer, times a power of ten. -/
structure Digits where
  digits : Nat
  exponent : Int
  deriving DecidableEq, Repr

/-- A positive ratio and the ends of the interval that is rounded to it, over a
common denominator, and whether the ends belong to the interval. -/
structure Target where
  value : Nat
  low : Nat
  high : Nat
  denominator : Nat
  closed : Bool

/-- The interval of numbers that are rounded to a positive finite number. -/
def Target.ofNumber (x : Binary64) : Target :=
  let m := x.significand
  let narrow := m == Nat.pow 2 52 && 1 < x.exponentField
  let (factor, denominator) := Binary64.shifted 1 1 (x.scale - 2)
  { value := 4 * m * factor
    low := (if narrow then 4 * m - 1 else 4 * m - 2) * factor
    high := (4 * m + 2) * factor
    denominator
    closed := m % 2 == 0 }

/-- Whether a ratio over the target's denominator reads back as the target. -/
def Target.contains (target : Target) (numerator scale : Nat) : Bool :=
  let low := target.low * scale
  let high := target.high * scale
  if target.closed then low ≤ numerator && numerator ≤ high
  else low < numerator && numerator < high

/-- The number of decimal digits of a natural number, zero having one. -/
def digitCount (n : Nat) : Nat :=
  (Nat.toDigits 10 n).length

/-- The exponent of the leading decimal digit of a ratio. -/
def leadingExponent (numerator denominator : Nat) : Int :=
  if denominator ≤ numerator then digitCount (numerator / denominator) - 1
  else -(digitCount ((denominator - 1) / numerator) : Int)

/-- The better neighbour of the target on the grid of multiples of a power of
ten, if one of them reads back as the target. -/
def Target.onGrid? (target : Target) (exponent : Int) : Option Nat :=
  let up := Nat.pow 10 exponent.toNat
  let down := Nat.pow 10 (-exponent).toNat
  let unit := target.denominator * up
  let value := target.value * down
  let below := value / unit
  let rest := value % unit
  let lowFits := below != 0 && target.contains (below * unit) down
  let highFits := target.contains ((below + 1) * unit) down
  if lowFits && highFits then
    if 2 * rest < unit || (2 * rest == unit && below % 2 == 0) then some below
    else some (below + 1)
  else if lowFits then some below
  else if highFits then some (below + 1)
  else none

/-- Search finer and finer grids. -/
def Target.search (target : Target) : Nat → Int → Digits
  | 0, exponent => ⟨target.value / target.denominator, exponent⟩
  | fuel + 1, exponent =>
    match target.onGrid? exponent with
    | some digits => ⟨digits, exponent⟩
    | none => target.search fuel (exponent - 1)

/-- The decimal digits of a natural number without trailing zeros, and the number
of zeros dropped. -/
def withoutTrailingZeros (n : Nat) : List Char × Nat :=
  let digits := Nat.toDigits 10 n
  let kept := (digits.reverse.dropWhile (· == '0')).reverse
  if kept.isEmpty then (['0'], 0) else (kept, digits.length - kept.length)

/-- The shortest digits of a positive finite number, and the exponent of the
first of them. -/
def shortest (x : Binary64) : List Char × Int :=
  let target := Target.ofNumber x
  let found := target.search 18 (leadingExponent target.value target.denominator)
  let (digits, dropped) := withoutTrailingZeros found.digits
  (digits, found.exponent + dropped + digits.length - 1)

/-- How a number is laid out: the range of exponents that are written with a
point among or before the digits, and whether a positive exponent has a sign. -/
structure Layout where
  leastPlain : Int
  mostPlain : Int
  signedExponent : Bool

/-- Digits with a point after the first `whole` of them, filled up with zeros. -/
def pointed (digits : List Char) (whole : Int) : List Char :=
  if whole ≤ 0 then
    ['0', '.'] ++ List.replicate (-whole).toNat '0' ++ digits
  else if digits.length ≤ whole.toNat then
    digits ++ List.replicate (whole.toNat - digits.length) '0' ++ ['.', '0']
  else digits.take whole.toNat ++ ['.'] ++ digits.drop whole.toNat

/-- Digits in scientific notation. -/
def scientific (layout : Layout) (digits : List Char) (exponent : Int) : List Char :=
  let mantissa := match digits with
    | first :: second :: rest => first :: '.' :: second :: rest
    | other => other
  let sign := if exponent < 0 then ['-'] else if layout.signedExponent then ['+'] else []
  mantissa ++ ['e'] ++ sign ++ Nat.toDigits 10 exponent.natAbs

/-- The text of a finite number. -/
def render (layout : Layout) (x : Binary64) : String :=
  let sign := if x.isNegative then ['-'] else []
  if x.isZero then String.ofList (sign ++ ['0', '.', '0'])
  else
    let (digits, exponent) := shortest x
    let body :=
      if layout.leastPlain ≤ exponent && exponent ≤ layout.mostPlain then
        pointed digits (exponent + 1)
      else scientific layout digits exponent
    String.ofList (sign ++ body)

end ContextDb.Decimal
