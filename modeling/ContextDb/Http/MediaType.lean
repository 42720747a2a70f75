import ContextDb.Http.Token

/-!
# Media types

Whether the type of a body says that it is JSON: `application/json`, or a type
of applications whose structured syntax is JSON, in any case and with any
parameters.
-/

namespace ContextDb.Http

/-- How far the parameters of a media type have been read. -/
inductive ParameterState where
  | beforeName
  | inName
  | atValue
  | inValue
  | inQuotes (isEmpty : Bool)
  | afterQuotes

/-- Take one byte of the parameters. -/
def ParameterState.next : ParameterState → UInt8 → Option ParameterState
  | .beforeName, byte =>
    if byte == 0x20 then some .beforeName else if isTokenByte byte then some .inName else none
  | .inName, byte =>
    if byte == 0x3D then some .atValue else if isTokenByte byte then some .inName else none
  | .atValue, byte =>
    if byte == 0x22 then some (.inQuotes true) else if isTokenByte byte then some .inValue else none
  | .inValue, byte =>
    if byte == 0x3B then some .beforeName else if isTokenByte byte then some .inValue else none
  | .inQuotes isEmpty, byte =>
    if byte == 0x22 && !isEmpty then some .afterQuotes
    else if 0x1F < byte && byte != 0x7F then some (.inQuotes false)
    else none
  | .afterQuotes, byte =>
    if byte == 0x3B then some .beforeName else if byte == 0x20 then some .afterQuotes else none

/-- Whether the parameters may end here. -/
def ParameterState.mayEnd : ParameterState → Bool
  | .inName | .inQuotes _ => false
  | _ => true

/-- Whether what follows the subtype is a list of parameters. -/
def areParameters (bytes : List UInt8) : Bool :=
  match bytes with
  | [] => true
  | byte :: rest =>
    byte == 0x3B && (rest.foldlM ParameterState.next .beforeName).any ParameterState.mayEnd

/-- A word in lower case. -/
def lowerWord (bytes : List UInt8) : List UInt8 :=
  bytes.map fun byte => if 0x41 ≤ byte && byte ≤ 0x5A then byte + 0x20 else byte

/-- The name of a subtype and its structured syntax, which follows the last plus
sign but not a leading one. -/
def subtypeParts (subtype : List UInt8) : List UInt8 × Option (List UInt8) :=
  let suffix := (subtype.reverse.takeWhile (· != 0x2B)).reverse
  let name := subtype.take (subtype.length - suffix.length - 1)
  if suffix.length < subtype.length && !name.isEmpty then (name, some suffix) else (subtype, none)

/-- Whether a media type is JSON. -/
def isJsonType (value : List UInt8) : Bool :=
  let json := "json".toUTF8.data.toList
  let type := value.takeWhile isTokenByte
  match value.drop type.length with
  | 0x2F :: rest =>
    let subtype := rest.takeWhile isTokenByte
    let (name, suffix) := subtypeParts (lowerWord subtype)
    value.all (fun byte => byte == 0x09 || (0x20 ≤ byte && byte < 0x7F)) &&
      lowerWord type == "application".toUTF8.data.toList &&
      areParameters (rest.drop subtype.length) && (name == json || suffix == some json)
  | _ => false

end ContextDb.Http
