import ContextDb.Json.Pointer
import ContextDb.Text.Bytes

/-!
# References in JSON documents

An object with a `$ref` text stands for another part of its document. References
are replaced by what they stand for, and references in that again, up to a fixed
number of times; one that leads nowhere stays.
-/

namespace ContextDb.Json

/-- How many references may lie within each other. -/
def maxReferences : Nat := 8

/-- The reference that an object with these members is. -/
def referenceOf? (members : List (String × Json)) : Option String :=
  (lookup members "$ref").bind text?

/-- The part of a document that a reference stands for. -/
def target? (document : Json) (reference : String) : Option Json :=
  match reference.toList with
  | '#' :: pointer => document.pointer? pointer
  | _ => none

mutual

/-- Replace every reference in a value for which there is a replacement. -/
def replaceReferences (replacement : String → Option Json) : Json → Json
  | .obj members =>
    match referenceOf? members with
    | some reference => (replacement reference).getD (.obj members)
    | none => .obj (replaceInMembers replacement members)
  | .arr items => .arr (replaceInItems replacement items)
  | other => other

/-- Replace references in the elements of an array. -/
def replaceInItems (replacement : String → Option Json) : List Json → List Json
  | [] => []
  | item :: rest => replaceReferences replacement item :: replaceInItems replacement rest

/-- Replace references in the members of an object. -/
def replaceInMembers (replacement : String → Option Json) :
    List (String × Json) → List (String × Json)
  | [] => []
  | (name, value) :: rest =>
    (name, replaceReferences replacement value) :: replaceInMembers replacement rest

end

/-- A value with the references in it replaced, up to `depth` within each other. -/
def resolveWithin (document : Json) : Nat → Json → Json
  | 0 => replaceReferences fun _ => none
  | depth + 1 =>
    replaceReferences fun reference =>
      (target? document reference).map (resolveWithin document depth)

/-- A value with the references in it replaced. -/
def resolve (document value : Json) : Json :=
  resolveWithin document maxReferences value

end ContextDb.Json
