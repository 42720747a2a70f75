import ContextDb.Json.Lexical

/-!
# Skipping JSON values

A value that nobody asks for is passed over. Its words must be well formed and
in their places, but they are given no meaning, and they may be nested to any
depth: the containers that are open are kept in a list.
-/

namespace ContextDb.Json

/-- A container whose end has not been read. -/
inductive Container where
  | array
  | object
  deriving DecidableEq

/-- What is skipped next: a value, the end of a container that may be empty, or
what follows a value. -/
inductive Skipping where
  | value
  | opened
  | following

/-- The bytes after the name of a member and its colon. -/
def skipName? (input : List UInt8) : Option (List UInt8) :=
  match skipBlank input with
  | [] => none
  | quote :: rest =>
    if quote != 0x22 then none
    else
      match skipText? rest with
      | none => none
      | some rest =>
        match skipBlank rest with
        | [] => none
        | colon :: rest => if colon == 0x3A then some rest else none

/-- The bytes after one word that is a value of its own. -/
def skipWord? (byte : UInt8) (rest : List UInt8) : Option (List UInt8) :=
  if byte == 0x22 then skipText? rest
  else if byte == 0x6E then expectNull? rest
  else if byte == 0x74 then expectTrue? rest
  else if byte == 0x66 then expectFalse? rest
  else (readNumeral? (byte :: rest)).map (·.2)

/-- The bytes after a value that no field takes, nested to any depth. -/
def skipFrom? : Nat → Skipping → List Container → List UInt8 → Option (List UInt8)
  | 0, _, _, _ => none
  | fuel + 1, phase, containers, input =>
    match phase, containers with
    | .value, _ =>
      match skipBlank input with
      | [] => none
      | byte :: rest =>
        if byte == 0x5B then skipFrom? fuel .opened (.array :: containers) rest
        else if byte == 0x7B then skipFrom? fuel .opened (.object :: containers) rest
        else
          match skipWord? byte rest with
          | none => none
          | some rest => skipFrom? fuel .following containers rest
    | .opened, [] => none
    | .opened, container :: outer =>
      match container, skipBlank input with
      | _, [] => none
      | .array, byte :: rest =>
        if byte == 0x5D then skipFrom? fuel .following outer rest
        else skipFrom? fuel .value containers (byte :: rest)
      | .object, byte :: rest =>
        if byte == 0x7D then skipFrom? fuel .following outer rest
        else
          match skipName? (byte :: rest) with
          | none => none
          | some rest => skipFrom? fuel .value containers rest
    | .following, [] => some input
    | .following, container :: outer =>
      match container, skipBlank input with
      | _, [] => none
      | .array, byte :: rest =>
        if byte == 0x5D then skipFrom? fuel .following outer rest
        else if byte == 0x2C then skipFrom? fuel .value containers rest
        else none
      | .object, byte :: rest =>
        if byte == 0x7D then skipFrom? fuel .following outer rest
        else if byte == 0x2C then
          match skipName? rest with
          | none => none
          | some rest => skipFrom? fuel .value containers rest
        else none

/-- The bytes after a value that no field takes. -/
def skip? (input : List UInt8) : Option (List UInt8) :=
  skipFrom? (2 * input.length + 2) .value [] input

end ContextDb.Json
