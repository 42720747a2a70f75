/-!
# Texts as bytes

Texts are sequences of characters whose stored form is UTF-8. This module cuts
a text at a byte offset and reads bytes back as text, strictly or with
replacement characters.
-/

namespace ContextDb.Text

/-- The text left after exactly `count` bytes, if that cut falls between two
characters of the text. -/
def dropBytes? : Nat → List Char → Option (List Char)
  | 0, text => some text
  | _ + 1, [] => none
  | count + 1, c :: rest =>
    if c.utf8Size ≤ count + 1 then dropBytes? (count + 1 - c.utf8Size) rest else none

/-- The text that starts after a given beginning. -/
def dropPrefix? : List Char → List Char → Option (List Char)
  | [], text => some text
  | _ :: _, [] => none
  | p :: beginning, c :: text => if p = c then dropPrefix? beginning text else none

/-- The bytes of a text. -/
def encode (text : List Char) : List UInt8 :=
  text.flatMap String.utf8EncodeChar

/-- The bytes of a string. -/
def bytesOf (text : String) : List UInt8 :=
  text.toUTF8.data.toList

/-- The text that a sequence of bytes stands for, if it is well formed. -/
def decode? (bytes : List UInt8) : Option String :=
  String.fromUTF8? ⟨bytes.toArray⟩

/-- What a decoder expects after some bytes of a character: how many more bytes,
the range of the next one, and the code point so far. -/
inductive Pending where
  | none
  | more (count : Nat) (low high : UInt8) (code : Nat)

/-- The character that stands in for bytes that are not text. -/
def replacement : Char := '\uFFFD'

/-- Start a character: a one-byte character is complete, a lead byte announces
its continuation bytes, and any other byte is replaced. -/
def start (decoded : List Char) (byte : UInt8) : Pending × List Char :=
  let code := byte.toNat
  if byte < 0x80 then (.none, Char.ofNat code :: decoded)
  else if 0xC2 ≤ byte && byte ≤ 0xDF then (.more 1 0x80 0xBF (code - 0xC0), decoded)
  else if byte == 0xE0 then (.more 2 0xA0 0xBF 0, decoded)
  else if byte == 0xED then (.more 2 0x80 0x9F (code - 0xE0), decoded)
  else if 0xE1 ≤ byte && byte ≤ 0xEF then (.more 2 0x80 0xBF (code - 0xE0), decoded)
  else if byte == 0xF0 then (.more 3 0x90 0xBF 0, decoded)
  else if 0xF1 ≤ byte && byte ≤ 0xF3 then (.more 3 0x80 0xBF (code - 0xF0), decoded)
  else if byte == 0xF4 then (.more 3 0x80 0x8F (code - 0xF0), decoded)
  else (.none, replacement :: decoded)

/-- Take one byte. A byte that cannot continue the pending character replaces
what was read of that character and begins a new one. -/
def advance : Pending × List Char → UInt8 → Pending × List Char
  | (.none, decoded), byte => start decoded byte
  | (.more count low high code, decoded), byte =>
    if low ≤ byte && byte ≤ high then
      let extended := code * 64 + (byte.toNat - 0x80)
      match count with
      | 0 | 1 => (.none, Char.ofNat extended :: decoded)
      | remaining + 1 => (.more remaining 0x80 0xBF extended, decoded)
    else start (replacement :: decoded) byte

/-- The characters of a sequence of bytes, where each longest stretch that
begins no valid character becomes one replacement character. -/
def repair (bytes : List UInt8) : List Char :=
  match bytes.foldl advance (.none, []) with
  | (.none, decoded) => decoded.reverse
  | (.more .., decoded) => (replacement :: decoded).reverse

/-- The text of a sequence of bytes: itself where it is well formed, repaired
where it is not. -/
def decodeLossy (bytes : ByteArray) : String :=
  match String.fromUTF8? bytes with
  | some text => text
  | none => String.ofList (repair bytes.data.toList)

end ContextDb.Text
