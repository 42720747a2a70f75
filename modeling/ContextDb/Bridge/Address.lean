import ContextDb.SortedMap
import ContextDb.Text.White
import ContextDb.Url.Form
import ContextDb.Url.Path

/-!
# Addresses of resources

An agent reads state under an address with a scheme and a host of its own. The
path of the address names what is read, and its query holds the arguments.
-/

namespace ContextDb.Bridge

open Text Url

/-- What an address asks for. -/
structure Reading where
  name : String
  arguments : SortedMap String

/-- Characters that are dropped around an address. -/
def isPadding (c : Char) : Bool :=
  c.toNat ≤ 0x20

/-- The text after the scheme of an address, which may be in any case. -/
def afterScheme? (text : List Char) : Option (List Char) :=
  match cutAt? ':' text with
  | some (scheme, rest) =>
    if scheme.map Char.toLower = "resource".toList then some rest else none
  | none => none

/-- Whether a character ends the part of an address that names the host. -/
def endsAuthority (c : Char) : Bool :=
  c = '/' || c = '?' || c = '#'

/-- An authority without the user in front of the host. -/
def withoutUser (authority : List Char) : List Char :=
  afterLast '@' authority

/-- The text after a number below 65536, which may be missing. -/
def skipPort? (text : List Char) : Option (List Char) :=
  let digits := text.takeWhile Char.isDigit
  let port : Nat := digits.foldl (fun n c => min (n * 10 + (c.toNat - '0'.toNat)) 65536) 0
  if port < 65536 then some (text.dropWhile Char.isDigit) else none

/-- What is left of an authority after the host and a colon with a number. Only a
backslash may follow the number. -/
def afterHost? (host : List Char) : Option (List Char) :=
  match dropPrefix? "openviking".toList host with
  | some [] => some []
  | some (':' :: rest) =>
    match skipPort? rest with
    | some [] => some []
    | some ('\\' :: rest) => some ('\\' :: rest)
    | _ => none
  | _ => none

/-- The text after the host of an address. A user without a host is refused. -/
def afterAuthority? (text : List Char) : Option (List Char) :=
  match dropPrefix? ['/', '/'] text with
  | none => none
  | some rest =>
    (afterHost? (withoutUser (rest.takeWhile (!endsAuthority ·)))).map
      (· ++ rest.dropWhile (!endsAuthority ·))

/-- Read an address. The names of arguments are distinct: of several, the last
counts. -/
def Reading.ofAddress? (address : String) : Option Reading := do
  let text := (trimBy isPadding address.toList).filter (!isDropped ·)
  let rest ← afterAuthority? (← afterScheme? text)
  let rest := rest.takeWhile (· != '#')
  let path := readPath (rest.takeWhile (· != '?'))
  let query := (rest.dropWhile (· != '?')).drop 1
  let name := path.dropWhile (· == '/')
  if name.isEmpty then none
  else
    return { name := String.ofList name
             arguments := .ofList (formDecode (String.ofList query)) }

end ContextDb.Bridge
