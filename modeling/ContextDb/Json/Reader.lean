import ContextDb.Json.Lexical
import ContextDb.SortedMap

/-!
# Reading JSON

The value of a JSON text. The members of an object are put in byte order of
their names, and of several with one name the last counts. Values may be nested
only up to a given depth.
-/

namespace ContextDb.Json

/-- The depth to which values may be nested in texts from outside. -/
def maxDepth : Nat := 127

/-- Members in byte order of their names, the last one of each name. -/
def canonicalMembers (members : List (String × Json)) : List (String × Json) :=
  (SortedMap.ofList members).toList

mutual

/-- The value that begins with the next word. -/
def readValue? (fuel depth : Nat) (input : List UInt8) : Option (Json × List UInt8) :=
  match fuel with
  | 0 => none
  | fuel + 1 =>
    match skipBlank input with
    | [] => none
    | byte :: rest =>
      if byte == 0x22 then (readText? rest).map fun (text, rest) => (.str text, rest)
      else if byte == 0x5B then
        match depth with
        | 0 => none
        | depth + 1 => readItems? fuel depth true [] rest
      else if byte == 0x7B then
        match depth with
        | 0 => none
        | depth + 1 => readMembers? fuel depth true [] rest
      else if byte == 0x6E then (expectNull? rest).map (.null, ·)
      else if byte == 0x74 then (expectTrue? rest).map (.bool true, ·)
      else if byte == 0x66 then (expectFalse? rest).map (.bool false, ·)
      else (readNumber? (byte :: rest)).map fun (number, rest) => (.num number, rest)

/-- The elements of an array up to its closing bracket, collected in reverse. -/
def readItems? (fuel depth : Nat) (first : Bool) (reversed : List Json) (input : List UInt8) :
    Option (Json × List UInt8) :=
  match fuel with
  | 0 => none
  | fuel + 1 =>
    match skipBlank input with
    | [] => none
    | byte :: rest =>
      if byte == 0x5D then some (.arr reversed.reverse, rest)
      else if first then
        match readValue? fuel depth (byte :: rest) with
        | none => none
        | some (item, rest) => readItems? fuel depth false (item :: reversed) rest
      else if byte == 0x2C then
        match readValue? fuel depth rest with
        | none => none
        | some (item, rest) => readItems? fuel depth false (item :: reversed) rest
      else none

/-- The members of an object up to its closing brace, collected in reverse. -/
def readMembers? (fuel depth : Nat) (first : Bool) (reversed : List (String × Json))
    (input : List UInt8) : Option (Json × List UInt8) :=
  match fuel with
  | 0 => none
  | fuel + 1 =>
    match skipBlank input with
    | [] => none
    | byte :: rest =>
      if byte == 0x7D then some (.obj (canonicalMembers reversed.reverse), rest)
      else
        let start := if first then byte :: rest else if byte == 0x2C then skipBlank rest else []
        match start with
        | [] => none
        | quote :: rest =>
          if quote != 0x22 then none
          else
            match readText? rest with
            | none => none
            | some (key, rest) =>
              match skipBlank rest with
              | [] => none
              | colon :: rest =>
                if colon != 0x3A then none
                else
                  match readValue? fuel depth rest with
                  | none => none
                  | some (value, rest) =>
                    readMembers? fuel depth false ((key, value) :: reversed) rest

end

/-- The value that a text consists of, nested up to a given depth. -/
def readWithin? (depth : Nat) (input : List UInt8) : Option Json :=
  match readValue? (2 * input.length + 2) depth input with
  | some (value, rest) => if (skipBlank rest).isEmpty then some value else none
  | none => none

/-- The value that a text consists of. -/
def read? (input : List UInt8) : Option Json :=
  readWithin? maxDepth input

/-- The value that a string consists of. -/
def ofText? (text : String) : Option Json :=
  read? text.toUTF8.data.toList

end ContextDb.Json
