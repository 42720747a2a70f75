import ContextDb.Json.Basic
import ContextDb.Text.Bytes
import ContextDb.Text.Hex

/-!
# The words of JSON

Reading the blanks, strings and numbers of a JSON text from its bytes. Each
reader takes the bytes from where its word begins and gives the word and the
bytes after it, or nothing if the word is malformed.
-/

namespace ContextDb.Json

open Text Decimal

/-- The bytes that may stand between words. -/
def isBlank (byte : UInt8) : Bool :=
  byte == 0x20 || byte == 0x0A || byte == 0x0D || byte == 0x09

/-- The bytes from the next word on. -/
def skipBlank (input : List UInt8) : List UInt8 :=
  input.dropWhile isBlank

/-- The bytes after a given word. -/
def expect? : List UInt8 → List UInt8 → Option (List UInt8)
  | [], input => some input
  | _ :: _, [] => none
  | wanted :: word, byte :: input => if wanted = byte then expect? word input else none

/-- The word `null` after its first letter. -/
def expectNull? : List UInt8 → Option (List UInt8) :=
  expect? [0x75, 0x6C, 0x6C]

/-- The word `true` after its first letter. -/
def expectTrue? : List UInt8 → Option (List UInt8) :=
  expect? [0x72, 0x75, 0x65]

/-- The word `false` after its first letter. -/
def expectFalse? : List UInt8 → Option (List UInt8) :=
  expect? [0x61, 0x6C, 0x73, 0x65]

/-- The value of four hexadecimal digits. -/
def fourDigits? (a b c d : UInt8) : Option Nat := do
  let a ← hexValue? a
  let b ← hexValue? b
  let c ← hexValue? c
  let d ← hexValue? d
  return ((a * 16 + b) * 16 + c) * 16 + d

/-- The byte that a one-letter escape stands for. -/
def escapedByte? (byte : UInt8) : Option UInt8 :=
  if byte == 0x22 || byte == 0x5C || byte == 0x2F then some byte
  else if byte == 0x62 then some 0x08
  else if byte == 0x66 then some 0x0C
  else if byte == 0x6E then some 0x0A
  else if byte == 0x72 then some 0x0D
  else if byte == 0x74 then some 0x09
  else none

/-- The bytes of a code point in reverse. -/
def reversedBytes (code : Nat) : List UInt8 :=
  (String.utf8EncodeChar (Char.ofNat code)).reverse

/-- The bytes of a string up to its closing quote, collected in reverse. Escapes
are replaced; an escape of half a surrogate pair has no meaning on its own. -/
def readBytes? (reversed : List UInt8) : List UInt8 → Option (List UInt8 × List UInt8)
  | [] => none
  | byte :: rest =>
    if byte == 0x22 then some (reversed.reverse, rest)
    else if byte == 0x5C then
      match rest with
      | [] => none
      | letter :: rest =>
        if letter == 0x75 then
          match rest with
          | a :: b :: c :: d :: rest =>
            match fourDigits? a b c d with
            | none => none
            | some code =>
              if 0xDC00 ≤ code && code ≤ 0xDFFF then none
              else if 0xD800 ≤ code && code ≤ 0xDBFF then
                match rest with
                | slash :: letter :: a :: b :: c :: d :: rest =>
                  if slash == 0x5C && letter == 0x75 then
                    match fourDigits? a b c d with
                    | none => none
                    | some second =>
                      if 0xDC00 ≤ second && second ≤ 0xDFFF then
                        readBytes?
                          (reversedBytes ((code - 0xD800) * 0x400 + (second - 0xDC00) + 0x10000)
                            ++ reversed) rest
                      else none
                  else none
                | _ => none
              else readBytes? (reversedBytes code ++ reversed) rest
          | _ => none
        else
          match escapedByte? letter with
          | none => none
          | some escaped => readBytes? (escaped :: reversed) rest
    else if byte < 0x20 then none
    else readBytes? (byte :: reversed) rest

/-- The text of a string after its opening quote. -/
def readText? (input : List UInt8) : Option (String × List UInt8) := do
  let (bytes, rest) ← readBytes? [] input
  let text ← decode? bytes
  return (text, rest)

/-- The bytes after a string whose text is of no interest. Escapes must have
the right shape but need not have a meaning. -/
def skipText? : List UInt8 → Option (List UInt8)
  | [] => none
  | byte :: rest =>
    if byte == 0x22 then some rest
    else if byte == 0x5C then
      match rest with
      | [] => none
      | letter :: rest =>
        if letter == 0x75 then
          match rest with
          | a :: b :: c :: d :: rest =>
            if (fourDigits? a b c d).isSome then skipText? rest else none
          | _ => none
        else if (escapedByte? letter).isSome then skipText? rest
        else none
    else if byte < 0x20 then none
    else skipText? rest

/-- Whether a byte is a decimal digit. -/
def isDigit (byte : UInt8) : Bool :=
  0x30 ≤ byte && byte ≤ 0x39

/-- The parts of a number as it is written. -/
structure Numeral where
  negative : Bool
  whole : List UInt8
  fraction : List UInt8
  /-- the sign and the digits of the exponent -/
  exponent : Option (Bool × List UInt8)

/-- The whole part of a number: it begins with a zero only if it is zero. -/
def readWhole? (input : List UInt8) : Option (List UInt8 × List UInt8) :=
  let digits := input.takeWhile isDigit
  match digits with
  | [] => none
  | first :: others =>
    if first == 0x30 && !others.isEmpty then none else some (digits, input.dropWhile isDigit)

/-- The digits of a fraction, if there is one; a point needs a digit after it. -/
def readFraction? (input : List UInt8) : Option (List UInt8 × List UInt8) :=
  match input with
  | 0x2E :: rest =>
    let digits := rest.takeWhile isDigit
    if digits.isEmpty then none else some (digits, rest.dropWhile isDigit)
  | _ => some ([], input)

/-- The sign of an exponent, positive if none is written. -/
def readSign (input : List UInt8) : Bool × List UInt8 :=
  match input with
  | byte :: rest =>
    if byte == 0x2D then (true, rest) else if byte == 0x2B then (false, rest) else (false, input)
  | [] => (false, [])

/-- The exponent, if there is one; its mark needs a digit after it. -/
def readExponent? (input : List UInt8) : Option (Option (Bool × List UInt8) × List UInt8) :=
  match input with
  | byte :: rest =>
    if byte == 0x65 || byte == 0x45 then
      let (negative, rest) := readSign rest
      let digits := rest.takeWhile isDigit
      if digits.isEmpty then none else some (some (negative, digits), rest.dropWhile isDigit)
    else some (none, input)
  | [] => some (none, [])

/-- The parts of a number. -/
def readNumeral? (input : List UInt8) : Option (Numeral × List UInt8) := do
  let (negative, input) := match input with
    | byte :: rest => if byte == 0x2D then (true, rest) else (false, input)
    | [] => (false, [])
  let (whole, input) ← readWhole? input
  let (fraction, input) ← readFraction? input
  let (exponent, input) ← readExponent? input
  return ({ negative, whole, fraction, exponent }, input)

/-- The largest unsigned 64-bit integer. -/
def maxUnsigned : Nat := Nat.pow 2 64 - 1

/-- Append decimal digits to a significand as long as it fits into 64 bits; also
the number of digits that fitted. -/
def absorb (significand taken : Nat) : List UInt8 → Nat × Nat
  | [] => (significand, taken)
  | byte :: rest =>
    let extended := significand * 10 + (byte.toNat - 0x30)
    if extended ≤ maxUnsigned then absorb extended (taken + 1) rest else (significand, taken)

/-- A power of ten in double precision. -/
def powerOfTen (exponent : Nat) : Binary64 :=
  .ofNat (Nat.pow 10 exponent)

/-- Divide by powers of ten that fit into double precision, one after another. -/
def divideByPower : Nat → Binary64 → Nat → Binary64
  | 0, x, _ => x
  | fuel + 1, x, exponent =>
    if x.isZero then x
    else if exponent ≤ 308 then x.divMagnitudes (powerOfTen exponent)
    else divideByPower fuel (x.divMagnitudes (powerOfTen 308)) (exponent - 308)

/-- A significand times a power of ten in double precision: the significand is
rounded first and the result once more. Too large a result is no number. -/
def scaled? (significand : Nat) (exponent : Int) : Option Binary64 :=
  let x := Binary64.ofNat significand
  if exponent < 0 then some (divideByPower 8 x (-exponent).toNat)
  else if exponent ≤ 308 then
    let product := x.mulMagnitudes (powerOfTen exponent.toNat)
    if product.isFinite then some product else none
  else if x.isZero then some x
  else none

/-- The largest exponent that is read digit by digit. -/
def maxExponent : Nat := Nat.pow 2 31 - 1

/-- The value of a number in double precision, given the significand of its
leading digits and the exponent that belongs to it. -/
def Numeral.float? (numeral : Numeral) (significand : Nat) (scale : Int) : Option Number :=
  let signed (x : Binary64) : Number := .float (x.withSign numeral.negative)
  match numeral.exponent with
  | none => (scaled? significand scale).map signed
  | some (negative, digits) =>
    let exponent :=
      digits.foldl (fun n byte => min (n * 10 + (byte.toNat - 0x30)) (maxExponent + 1)) 0
    if maxExponent < exponent then
      if significand ≠ 0 && !negative then none else some (signed (.zero false))
    else (scaled? significand (if negative then scale - exponent else scale + exponent)).map signed

/-- The value of a number. Digits beyond those that fit into 64 bits only count
for its size. -/
def Numeral.value? (numeral : Numeral) : Option Number :=
  let (leading, taken) := absorb 0 0 numeral.whole
  let skipped := numeral.whole.length - taken
  if skipped = 0 && numeral.fraction.isEmpty && numeral.exponent.isNone then
    if !numeral.negative then some (.int leading)
    else if leading = 0 || Nat.pow 2 63 < leading then
      some (.float ((Binary64.ofNat leading).withSign true))
    else some (.int (-leading))
  else
    let (significand, places) := absorb leading 0 numeral.fraction
    numeral.float? significand ((skipped : Int) - places)

/-- A number and the bytes after it. -/
def readNumber? (input : List UInt8) : Option (Number × List UInt8) := do
  let (numeral, rest) ← readNumeral? input
  let value ← numeral.value?
  return (value, rest)

end ContextDb.Json
