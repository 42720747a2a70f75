import ContextDb.Decimal.Binary64
import ContextDb.Toml.Lexical

/-!
# Numbers and times of TOML

Integers of 64 bits, of which the value matters here, and fractions, dates and
times, of which it only matters that they are well formed.
-/

namespace ContextDb.Toml

open Text Decimal

/-- A run of digits, between which single underscores may stand. -/
def readDigitRun (isDigit : Char → Bool) (reversed : List Char) : Reader (List Char)
  | [] => if reversed.isEmpty then none else some (reversed.reverse, [])
  | '_' :: rest =>
    match rest with
    | c :: rest =>
      if reversed.isEmpty || !isDigit c then none else readDigitRun isDigit (c :: reversed) rest
    | [] => none
  | c :: rest =>
    if isDigit c then readDigitRun isDigit (c :: reversed) rest
    else if reversed.isEmpty then none
    else some (reversed.reverse, c :: rest)

/-- The value of digits in a base. -/
def valueIn (base : Nat) (digits : List Char) : Nat :=
  digits.foldl (fun n c => n * base + (hexDigitValue? c).getD 0) 0

/-- A sign, negative or not. -/
def readSign (text : List Char) : Bool × List Char :=
  match text with
  | '-' :: rest => (true, rest)
  | '+' :: rest => (false, rest)
  | _ => (false, text)

/-- The digits of a decimal integer; it begins with a zero only if it is zero. -/
def readDecimal : Reader (List Char) := fun text =>
  match text with
  | '0' :: rest => some (['0'], rest)
  | _ => readDigitRun Char.isDigit [] text

/-- The least integer of 64 bits. -/
def minInteger : Int := -9223372036854775808

/-- The greatest integer of 64 bits. -/
def maxInteger : Int := 9223372036854775807

/-- An integer that fits into 64 bits. -/
def fitting (value : Int) (rest : List Char) : Option (Int × List Char) :=
  if minInteger ≤ value && value ≤ maxInteger then some (value, rest) else none

/-- Whether a character is a digit of a base. -/
def isDigitOf (base : Nat) (c : Char) : Bool :=
  (hexDigitValue? c).any (· < base)

/-- An integer in a base other than ten, after the letter of the base. -/
def readInBase (base : Nat) : Reader Int := fun text =>
  (readDigitRun (isDigitOf base) [] text).bind fun (digits, rest) =>
    fitting (valueIn base digits) rest

/-- An integer. -/
def readInteger : Reader Int := fun text =>
  match text with
  | '0' :: 'x' :: rest => readInBase 16 rest
  | '0' :: 'o' :: rest => readInBase 8 rest
  | '0' :: 'b' :: rest => readInBase 2 rest
  | _ =>
    let (negative, rest) := readSign text
    (readDecimal rest).bind fun (digits, rest) =>
      let value : Int := valueIn 10 digits
      fitting (if negative then -value else value) rest

/-- The text after a word. -/
def word? (word : String) (text : List Char) : Option (List Char) :=
  if word.toList.isPrefixOf text then some (text.drop word.length) else none

/-- The digits and the value of an exponent, if there is one. -/
def readExponent : Reader (Option Int) := fun text =>
  match text with
  | c :: rest =>
    if c = 'e' || c = 'E' then
      let (negative, rest) := readSign rest
      (readDigitRun Char.isDigit [] rest).map fun (digits, rest) =>
        let value : Int := valueIn 10 (digits.take 12)
        (some (if negative then -value else value), rest)
    else some (none, text)
  | [] => some (none, [])

/-- Whether digits times a power of ten are too large for double precision. -/
def isTooLarge (digits : List Char) (exponent : Int) : Bool :=
  let significand := valueIn 10 digits
  if significand = 0 then false
  else
    let size := exponent + (digits.dropWhile (· == '0')).length
    if 400 < size then true
    else if size < -400 then false
    else
      let (top, bottom) :=
        if 0 ≤ exponent then (significand * Nat.pow 10 exponent.toNat, 1)
        else (significand, Nat.pow 10 (-exponent).toNat)
      !(Binary64.ofRatio false top bottom).isFinite

/-- The digits of a fraction, if there is one. -/
def readPlaces : Reader (Option (List Char)) := fun text =>
  match text with
  | '.' :: rest =>
    (readDigitRun Char.isDigit [] rest).map fun (digits, rest) => (some digits, rest)
  | _ => some (none, text)

/-- The text after a number with a fraction or an exponent. A positive number must
fit into double precision. -/
def skipFractional? (negative : Bool) (text : List Char) : Option (List Char) := do
  let (whole, rest) ← readDecimal text
  let (places, rest) ← readPlaces rest
  let (exponent, rest) ← readExponent rest
  if places.isNone && exponent.isNone then none
  else
    let places := places.getD []
    if !negative && isTooLarge (whole ++ places) (exponent.getD 0 - places.length) then none
    else some rest

/-- The text after a number that is no integer, or after a word for what is no
number. -/
def skipFraction? (text : List Char) : Option (List Char) :=
  let (negative, unsigned) := readSign text
  (skipFractional? negative unsigned).orElse fun _ =>
    (word? "inf" unsigned).orElse fun _ => word? "nan" unsigned

/-- A number of exactly so many digits, in a range. -/
def readDigits (count low high : Nat) : Reader Nat := fun text =>
  let digits := text.take count
  if digits.length = count && digits.all Char.isDigit then
    let value := valueIn 10 digits
    if low ≤ value && value ≤ high then some (value, text.drop count) else none
  else none

/-- The text after a given character. -/
def char? (c : Char) : List Char → Option (List Char)
  | [] => none
  | first :: rest => if first = c then some rest else none

/-- The number of days of a month. -/
def daysIn (year month : Nat) : Nat :=
  if month = 2 then
    if year % 4 = 0 && (year % 100 ≠ 0 || year % 400 = 0) then 29 else 28
  else if [4, 6, 9, 11].contains month then 30
  else 31

/-- The text after a date. -/
def skipDate? (text : List Char) : Option (List Char) := do
  let (year, rest) ← readDigits 4 0 9999 text
  let rest ← char? '-' rest
  let (month, rest) ← readDigits 2 1 12 rest
  let rest ← char? '-' rest
  let (_, rest) ← readDigits 2 1 (daysIn year month) rest
  return rest

/-- The text after a time of day. -/
def skipClock? (text : List Char) : Option (List Char) := do
  let (_, rest) ← readDigits 2 0 23 text
  let rest ← char? ':' rest
  let (_, rest) ← readDigits 2 0 59 rest
  let rest ← char? ':' rest
  let (_, rest) ← readDigits 2 0 60 rest
  match rest with
  | '.' :: fraction =>
    if (fraction.takeWhile Char.isDigit).isEmpty then none
    else some (fraction.dropWhile Char.isDigit)
  | _ => some rest

/-- The text after the distance from universal time, if it is given. -/
def skipOffset? (text : List Char) : Option (List Char) :=
  match text with
  | 'Z' :: rest | 'z' :: rest => some rest
  | '+' :: rest | '-' :: rest => do
    let (_, rest) ← readDigits 2 0 23 rest
    let rest ← char? ':' rest
    let (_, rest) ← readDigits 2 0 59 rest
    return rest
  | _ => some text

/-- The text after a date, a time of day, or both. -/
def skipTime? (text : List Char) : Option (List Char) :=
  match skipDate? text with
  | none => skipClock? text
  | some rest =>
    match rest with
    | separator :: clock =>
      if separator = 'T' || separator = 't' || separator = ' ' then
        match skipClock? clock with
        | some after => skipOffset? after
        | none => some rest
      else some rest
    | [] => some []

end ContextDb.Toml
