import ContextDb.Text.Bytes
import ContextDb.Text.Hex

/-!
# Universally unique identifiers

Sessions are named by 128-bit identifiers. They are written as 32 lower-case
hexadecimal digits in five groups, and are read from that form with digits of
either case, from the digits alone, from the form in braces, and as a URN.
-/

namespace ContextDb

/-- A 128-bit identifier. -/
structure Uuid where
  bits : BitVec 128
  deriving DecidableEq, Repr, Inhabited

namespace Uuid

/-- The identifier of random bits, marked as random by its version and variant. -/
def ofRandom (bits : BitVec 128) : Uuid :=
  ⟨bits &&& 0xffffffffffff0fff3fffffffffffffff#128 ||| 0x00000000000040008000000000000000#128⟩

/-- The hexadecimal digits of an identifier. -/
def digits (id : Uuid) : List Char :=
  (List.range 32).map fun position =>
    Text.lowerHexDigit (id.bits.toNat / Nat.pow 16 (31 - position) % 16)

/-- The written form of an identifier. -/
def toString (id : Uuid) : String :=
  let all := id.digits
  let group (start count : Nat) := (all.drop start).take count
  String.ofList (group 0 8 ++ '-' :: group 8 4 ++ '-' :: group 12 4 ++ '-' :: group 16 4 ++
    '-' :: group 20 12)

/-- The identifier with the given 32 digits. -/
def ofDigits? (digits : List Char) : Option Uuid :=
  if digits.length = 32 then
    (digits.foldlM (fun value c => (Text.hexDigitValue? c).map (value * 16 + ·)) 0).map
      fun value => ⟨BitVec.ofNat 128 value⟩
  else none

/-- The identifier written in five groups of digits. -/
def ofGroups? (text : List Char) : Option Uuid :=
  let group (start count : Nat) := (text.drop start).take count
  if text.length = 36 && [8, 13, 18, 23].all fun position => text[position]? = some '-' then
    ofDigits? (group 0 8 ++ group 9 4 ++ group 14 4 ++ group 19 4 ++ group 24 12)
  else none

/-- The text between braces. -/
def unbraced? : List Char → Option (List Char)
  | '\x7b' :: rest => if rest.getLast? = some '\x7d' then some rest.dropLast else none
  | _ => none

/-- The text after the mark of a URN, which may be in any case. -/
def afterUrn? (text : List Char) : Option (List Char) :=
  let mark := "urn:uuid:".toList
  if (text.take mark.length).map Char.toLower = mark then some (text.drop mark.length) else none

/-- The identifier that a text stands for. -/
def ofText? (text : String) : Option Uuid :=
  let characters := text.toList
  (ofDigits? characters).orElse fun _ =>
    (ofGroups? characters).orElse fun _ =>
      ((unbraced? characters).bind ofGroups?).orElse fun _ =>
        (afterUrn? characters).bind ofGroups?

end Uuid

end ContextDb
