import ContextDb.Json.Basic
import ContextDb.Text.Hex

/-!
# Writing JSON

The text of a value: no blanks, members in their order, and in strings an escape
only for what cannot stand there.
-/

namespace ContextDb.Json

open Text

/-- The written form of one character of a string. -/
def escapeChar (c : Char) : String :=
  if c = '"' then "\\\""
  else if c = '\\' then "\\\\"
  else if 0x20 ≤ c.toNat then c.toString
  else if c = '\n' then "\\n"
  else if c = '\r' then "\\r"
  else if c = '\t' then "\\t"
  else if c.toNat = 8 then "\\b"
  else if c.toNat = 12 then "\\f"
  else
    String.ofList ['\\', 'u', '0', '0', lowerHexDigit (c.toNat / 16), lowerHexDigit (c.toNat % 16)]

/-- Append the written form of a string. -/
def writeText (written text : String) : String :=
  (text.toList.foldl (fun soFar c => soFar ++ escapeChar c) (written.push '"')).push '"'

mutual

/-- Append the written form of a value. -/
def write (written : String) : Json → String
  | .null => written ++ "null"
  | .bool true => written ++ "true"
  | .bool false => written ++ "false"
  | .num value => written ++ value.render
  | .str value => writeText written value
  | .arr items => (writeItems (written.push '[') true items).push ']'
  | .obj members => (writeMembers (written.push '\x7b') true members).push '\x7d'

/-- Append the elements of an array, with a comma before all but the first. -/
def writeItems (written : String) (first : Bool) : List Json → String
  | [] => written
  | item :: rest =>
    writeItems (write (if first then written else written.push ',') item) false rest

/-- Append the members of an object, with a comma before all but the first. -/
def writeMembers (written : String) (first : Bool) : List (String × Json) → String
  | [] => written
  | (key, value) :: rest =>
    let started := writeText (if first then written else written.push ',') key
    writeMembers (write (started.push ':') value) false rest

end

/-- The text of a value. -/
def render (value : Json) : String :=
  write "" value

end ContextDb.Json
