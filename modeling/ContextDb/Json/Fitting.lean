import ContextDb.Json.Shape
import ContextDb.Json.Skip
import ContextDb.Text.Quoted

/-!
# Reading JSON of a known shape

A text is read from left to right against the shape that is expected: the first
word that the shape does not allow ends the reading with a reason and the place
in the value where it stands. Members that the shape does not name are skipped;
a record may also be written as the array of all its fields.
-/

namespace ContextDb.Json

open Text

/-- A reader of values at a place. -/
abbrev ShapeReader (α : Type) :=
  List Step → List UInt8 → Except Misfit (α × List UInt8)

/-- The result of reading a word, where a malformed word ends the reading. -/
def wellFormed {α : Type} : Option α → Except Misfit α
  | none => .error .malformed
  | some value => .ok value

/-- Name a value in backticks. -/
def ticked (text : String) : String :=
  "`" ++ text ++ "`"

/-- The words for a value that has the wrong type. -/
def wrongType (found wanted : String) : String :=
  "invalid type: " ++ found ++ ", expected " ++ wanted

/-- The words for a number. -/
def Number.described : Number → String
  | .int value => "integer " ++ ticked (Number.int value).render
  | .float value => "floating point " ++ ticked (Number.float value).render

/-- The misfit of a value whose word has been read and is described by `found`. -/
def misfitOf {α : Type} (wanted : String) (place : List Step) (found : α → String) :
    Option α → Misfit
  | none => .malformed
  | some value => .unexpected place (wrongType (found value) wanted)

/-- The misfit of the value that begins with the given byte. Its text is read
as far as it is quoted in the reason, and may turn out malformed. -/
def misfit (wanted : String) (place : List Step) (byte : UInt8) (rest : List UInt8) : Misfit :=
  if byte == 0x22 then
    misfitOf wanted place (fun (text, _) => "string " ++ quoted text) (readText? rest)
  else if byte == 0x5B then .unexpected place (wrongType "sequence" wanted)
  else if byte == 0x7B then .unexpected place (wrongType "map" wanted)
  else if byte == 0x6E then misfitOf wanted place (fun _ => "null") (expectNull? rest)
  else if byte == 0x74 then misfitOf wanted place (fun _ => "boolean `true`") (expectTrue? rest)
  else if byte == 0x66 then misfitOf wanted place (fun _ => "boolean `false`") (expectFalse? rest)
  else
    misfitOf wanted place (fun (number, _) => number.described) (readNumber? (byte :: rest))

/-- Read a string. -/
def readTextShape : ShapeReader String := fun place input =>
  match skipBlank input with
  | [] => .error .malformed
  | byte :: rest =>
    if byte == 0x22 then wellFormed (readText? rest)
    else .error (misfit Shape.text.wanted place byte rest)

/-- Read a truth value. -/
def readFlagShape : ShapeReader Bool := fun place input =>
  match skipBlank input with
  | [] => .error .malformed
  | byte :: rest =>
    if byte == 0x74 then wellFormed ((expectTrue? rest).map (true, ·))
    else if byte == 0x66 then wellFormed ((expectFalse? rest).map (false, ·))
    else .error (misfit Shape.flag.wanted place byte rest)

/-- Read a natural number. -/
def readCountShape : ShapeReader Nat := fun place input =>
  match skipBlank input with
  | [] => .error .malformed
  | byte :: rest =>
    if byte == 0x2D || isDigit byte then
      match readNumber? (byte :: rest) with
      | none => .error .malformed
      | some (.int value, rest) =>
        if 0 ≤ value then .ok (value.toNat, rest)
        else
          .error (.unexpected place
            ("invalid value: " ++ (Number.int value).described ++ ", expected " ++
              Shape.count.wanted))
      | some (number, _) =>
        .error (.unexpected place (wrongType number.described Shape.count.wanted))
    else .error (misfit Shape.count.wanted place byte rest)

/-- Read a value that may be null. -/
def readOptional {α : Type} (read : ShapeReader α) : ShapeReader (Option α) := fun place input =>
  match skipBlank input with
  | 0x6E :: rest => wellFormed ((expectNull? rest).map (none, ·))
  | _ => (read place input).map fun (value, rest) => (some value, rest)

/-- The bytes of the next element of an array, or nothing at its end. The input
begins after the opening bracket or after an element. -/
def nextItem (first : Bool) (input : List UInt8) : Except Misfit (Option (List UInt8)) :=
  match skipBlank input with
  | [] => .error .malformed
  | byte :: rest =>
    if byte == 0x5D then .ok none
    else if first then .ok (some (byte :: rest))
    else if byte == 0x2C then
      match skipBlank rest with
      | [] => .error .malformed
      | byte :: rest => if byte == 0x5D then .error .malformed else .ok (some (byte :: rest))
    else .error .malformed

/-- The bytes after the bracket or brace that closes a value. -/
def closing (bracket : UInt8) (input : List UInt8) : Except Misfit (List UInt8) :=
  match skipBlank input with
  | [] => .error .malformed
  | byte :: rest => if byte == bracket then .ok rest else .error .malformed

/-- Read the elements of an array from the given position on. -/
def readItemsFrom {α : Type} (read : ShapeReader α) (place : List Step) :
    Nat → Nat → List α → List UInt8 → Except Misfit (List α × List UInt8)
  | 0, _, _, _ => .error .malformed
  | fuel + 1, position, reversed, input =>
    match nextItem (position == 0) input with
    | .error reason => .error reason
    | .ok none => (closing 0x5D input).map (reversed.reverse, ·)
    | .ok (some start) =>
      match read (.index position :: place) start with
      | .error reason => .error reason
      | .ok (item, rest) => readItemsFrom read place fuel (position + 1) (item :: reversed) rest

/-- Read an array of values of one shape. -/
def readList {α : Type} (read : ShapeReader α) : ShapeReader (List α) := fun place input =>
  match skipBlank input with
  | [] => .error .malformed
  | byte :: rest =>
    if byte == 0x5B then readItemsFrom read place (rest.length + 1) 0 [] rest
    else .error (misfit (Shape.list .text).wanted place byte rest)

/-- The name of the next member of an object and the bytes after the name, or
nothing at its end. -/
def nextName (first : Bool) (input : List UInt8) :
    Except Misfit (Option (String × List UInt8)) :=
  match skipBlank input with
  | [] => .error .malformed
  | byte :: rest =>
    if byte == 0x7D then .ok none
    else
      let start := if first then byte :: rest else if byte == 0x2C then skipBlank rest else []
      match start with
      | [] => .error .malformed
      | quote :: rest =>
        if quote == 0x22 then (wellFormed (readText? rest)).map some else .error .malformed

/-- Read the members of an object, of which `take` reads those that are
fields. -/
def readMembersFrom {Slots : Type} (isField : String → Bool) (isKnown : Slots → String → Bool)
    (take : Slots → String → List UInt8 → Except Misfit (Slots × List UInt8))
    (place : List Step) :
    Nat → Bool → Slots → List UInt8 → Except Misfit (Slots × List UInt8)
  | 0, _, _, _ => .error .malformed
  | fuel + 1, first, slots, input =>
    match nextName first input with
    | .error reason => .error reason
    | .ok none => .ok (slots, input)
    | .ok (some (key, rest)) =>
      if isField key && isKnown slots key then
        .error (.unexpected place ("duplicate field " ++ ticked key))
      else
        match closing 0x3A rest with
        | .error reason => .error reason
        | .ok rest =>
          let taken :=
            if isField key then take slots key rest
            else (wellFormed (skip? rest)).map (slots, ·)
          match taken with
          | .error reason => .error reason
          | .ok (slots, rest) => readMembersFrom isField isKnown take place fuel false slots rest

/-- The words for a number of elements. -/
def elements (count : Nat) : String :=
  Nat.repr count ++ (if count = 1 then " element" else " elements")

mutual

/-- Read a value of a shape. -/
def Shape.read : (shape : Shape) → ShapeReader shape.Value
  | .text => readTextShape
  | .flag => readFlagShape
  | .count => readCountShape
  | .optional inner => readOptional inner.read
  | .list item => readList item.read
  | .record name fields => fun place input =>
    match skipBlank input with
    | [] => .error .malformed
    | byte :: rest =>
      if byte == 0x5B then
        match fields.readInOrder name fields.size 0 place rest with
        | .error reason => .error reason
        | .ok (values, rest) => (closing 0x5D rest).map (values, ·)
      else if byte == 0x7B then
        let found := readMembersFrom fields.has fields.isKnown
          (fun slots key rest => fields.readNamed slots key place rest) place (rest.length + 1)
          true fields.unknown rest
        match found with
        | .error reason => .error reason
        | .ok (slots, rest) =>
          match fields.complete slots with
          | .error missing => .error (.unexpected place ("missing field " ++ ticked missing))
          | .ok values => (closing 0x7D rest).map (values, ·)
      else .error (misfit (Shape.record name fields).wanted place byte rest)

/-- Read the value of the field with a given name. -/
def Fields.readNamed : (fields : Fields) → fields.Slots → String →
    ShapeReader fields.Slots
  | .done, slots, _ => fun _ input => .ok (slots, input)
  | .field name _ shape others, (slot, slots), key => fun place input =>
    if name = key then
      (shape.read (.member name :: place) input).map fun (value, rest) =>
        ((some value, slots), rest)
    else
      (others.readNamed slots key place input).map fun (slots, rest) => ((slot, slots), rest)

/-- Read the values of all fields of a record of `total` fields as the elements
of an array, from the given position on. -/
def Fields.readInOrder : (fields : Fields) → String → (total position : Nat) →
    ShapeReader fields.Values
  | .done, _, _, _ => fun _ input => .ok ((), input)
  | .field _ _ shape others, name, total, position => fun place input =>
    match nextItem (position == 0) input with
    | .error reason => .error reason
    | .ok none =>
      .error (.unexpected place
        ("invalid length " ++ Nat.repr position ++ ", expected struct " ++ name ++ " with " ++
          elements total))
    | .ok (some start) =>
      match shape.read (.index position :: place) start with
      | .error reason => .error reason
      | .ok (value, rest) =>
        (others.readInOrder name total (position + 1) place rest).map fun (values, rest) =>
          ((value, values), rest)

end

/-- The value that a whole text stands for. -/
def Shape.readAll (shape : Shape) (input : List UInt8) : Except Misfit shape.Value :=
  match shape.read [] input with
  | .error reason => .error reason
  | .ok (value, rest) => if (skipBlank rest).isEmpty then .ok value else .error .malformed

end ContextDb.Json
