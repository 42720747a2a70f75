/-!
# Hexadecimal digits

The value of a digit of either case, and the digit of a value.
-/

namespace ContextDb.Text

/-- The value of a hexadecimal digit given as a byte. -/
def hexValue? (byte : UInt8) : Option Nat :=
  if 0x30 ≤ byte && byte ≤ 0x39 then some (byte.toNat - 0x30)
  else if 0x61 ≤ byte && byte ≤ 0x66 then some (byte.toNat - 0x61 + 10)
  else if 0x41 ≤ byte && byte ≤ 0x46 then some (byte.toNat - 0x41 + 10)
  else none

/-- The value of a hexadecimal digit given as a character. -/
def hexDigitValue? (c : Char) : Option Nat :=
  if c.toNat < 128 then hexValue? c.toNat.toUInt8 else none

/-- The digit with a given value below 16, in lower case. -/
def lowerHexDigit (value : Nat) : Char :=
  Char.ofNat (if value < 10 then 0x30 + value else 0x61 + (value - 10))

/-- The digit with a given value below 16, in upper case. -/
def upperHexDigit (value : Nat) : Char :=
  Char.ofNat (if value < 10 then 0x30 + value else 0x41 + (value - 10))

/-- Two lower-case digits for each byte. -/
def hexOfBytes (bytes : List UInt8) : String :=
  String.ofList (bytes.flatMap fun byte =>
    [lowerHexDigit (byte.toNat / 16), lowerHexDigit (byte.toNat % 16)])

/-- The bytes written as two hexadecimal digits each. -/
def bytesOfHex? : List Char → Option (List UInt8)
  | [] => some []
  | high :: low :: rest => do
    let h ← hexDigitValue? high
    let l ← hexDigitValue? low
    let bytes ← bytesOfHex? rest
    return (h * 16 + l).toUInt8 :: bytes
  | [_] => none

end ContextDb.Text
