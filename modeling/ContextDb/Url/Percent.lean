import ContextDb.Text.Bytes
import ContextDb.Text.Hex

/-!
# Percent-encoding

Characters that have no place in a URL are written as their bytes, each as a
percent sign and two hexadecimal digits.
-/

namespace ContextDb.Url

open Text

/-- A byte as a percent sign and two digits. -/
def escapeByte (byte : UInt8) : List Char :=
  ['%', upperHexDigit (byte.toNat / 16), upperHexDigit (byte.toNat % 16)]

/-- A character as escapes of its bytes. -/
def escapeChar (c : Char) : List Char :=
  (String.utf8EncodeChar c).flatMap escapeByte

/-- The bytes of a text in which escapes are replaced by what they stand for,
collected in reverse. A percent sign without two digits stands for itself. -/
def unescapeFrom (reversed : List UInt8) : List UInt8 → List UInt8
  | [] => reversed.reverse
  | byte :: rest =>
    if byte == 0x25 then
      match rest with
      | high :: low :: after =>
        match hexValue? high, hexValue? low with
        | some h, some l => unescapeFrom ((h * 16 + l).toUInt8 :: reversed) after
        | _, _ => unescapeFrom (byte :: reversed) (high :: low :: after)
      | [last] => unescapeFrom (byte :: reversed) [last]
      | [] => unescapeFrom (byte :: reversed) []
    else unescapeFrom (byte :: reversed) rest

/-- The bytes of a text in which escapes are replaced by what they stand for. -/
def unescape (bytes : List UInt8) : List UInt8 :=
  unescapeFrom [] bytes

end ContextDb.Url
