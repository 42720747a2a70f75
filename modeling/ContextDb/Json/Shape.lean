/-!
# Shapes of JSON values

What is expected of a request: the type of each of its fields, which of them may
be left out, and the values that a shape has. A value without the expected shape
is described by the place where it differs and the reason.
-/

namespace ContextDb.Json

mutual

/-- What is expected of a value. -/
inductive Shape where
  | text
  | flag
  | count
  | optional (inner : Shape)
  | list (item : Shape)
  | record (name : String) (fields : Fields)

/-- The fields of a record in their order, each with a description. -/
inductive Fields where
  | done
  | field (name about : String) (shape : Shape) (others : Fields)

end

mutual

/-- The values of a shape. -/
def Shape.Value : Shape → Type
  | .text => String
  | .flag => Bool
  | .count => Nat
  | .optional inner => Option inner.Value
  | .list item => List item.Value
  | .record _ fields => fields.Values

/-- A value for each field. -/
def Fields.Values : Fields → Type
  | .done => Unit
  | .field _ _ shape others => shape.Value × others.Values

end

/-- What is known of each field so far. -/
def Fields.Slots : Fields → Type
  | .done => Unit
  | .field _ _ shape others => Option shape.Value × others.Slots

/-- Nothing known of any field. -/
def Fields.unknown : (fields : Fields) → fields.Slots
  | .done => ()
  | .field _ _ _ others => (none, others.unknown)

/-- The number of fields. -/
def Fields.size : Fields → Nat
  | .done => 0
  | .field _ _ _ others => others.size + 1

/-- Whether a field of this name is known. -/
def Fields.isKnown : (fields : Fields) → fields.Slots → String → Bool
  | .done, _, _ => false
  | .field name _ _ others, (slot, slots), key =>
    if name = key then slot.isSome else others.isKnown slots key

/-- Whether there is a field of this name. -/
def Fields.has : Fields → String → Bool
  | .done, _ => false
  | .field name _ _ others, key => name = key || others.has key

/-- The value of a field that is not written, if it may be left out. -/
def Shape.absent? : (shape : Shape) → Option shape.Value
  | .optional _ => some none
  | _ => none

/-- A value for each field, or the name of the first that has none and needs
one. -/
def Fields.complete : (fields : Fields) → fields.Slots → Except String fields.Values
  | .done, _ => .ok ()
  | .field name _ shape others, (slot, slots) =>
    match slot.orElse fun _ => shape.absent? with
    | none => .error name
    | some value =>
      match others.complete slots with
      | .error missing => .error missing
      | .ok values => .ok (value, values)

/-- What a shape expects, in words. -/
def Shape.wanted : Shape → String
  | .text => "a string"
  | .flag => "a boolean"
  | .count => "usize"
  | .optional inner => inner.wanted
  | .list _ => "a sequence"
  | .record name _ => "struct " ++ name

/-- A step from a value to a part of it. -/
inductive Step where
  | member (name : String)
  | index (position : Nat)

/-- The text of a place in a value. The steps are given from the innermost. -/
def renderPlace (place : List Step) : String :=
  place.reverse.foldl (fun written step =>
    match step with
    | .member name => if written.isEmpty then name else written ++ "." ++ name
    | .index position => written ++ "[" ++ Nat.repr position ++ "]") ""

/-- Why a text does not have the expected shape. -/
inductive Misfit where
  /-- the text is not JSON -/
  | malformed
  /-- a value at some place is not what is expected there -/
  | unexpected (place : List Step) (reason : String)

end ContextDb.Json
