import ContextDb.Capability.Catalog
import ContextDb.Proofs.ByteOrder
import ContextDb.Proofs.Canonical

/-!
# What a document describes

The actions of a document are those of the descriptions in it. A description stands at a path
and under a method, and in a canonical document each one comes before those that are listed
behind it, so that no two stand at the same place.
-/

namespace ContextDb.Capability

open Json Text

variable {document : Json}

/-! ## Places -/

/-- Where an action is described: at a path and under a method. -/
structure Place where
  path : String
  method : String
  deriving DecidableEq

/-- The position of a method among those that are looked for. -/
def methodRank (method : String) : Nat :=
  describedMethods.findIdx (·.2 = method)

/-- The order of places in a document: first by the bytes of their paths and then by the order
in which methods are looked for. -/
def Place.Precedes (first second : Place) : Prop :=
  bytesOf first.path < bytesOf second.path ∨
    first.path = second.path ∧ methodRank first.method < methodRank second.method

theorem Place.Precedes.ne {first second : Place} (precedes : first.Precedes second) :
    first ≠ second := by
  rintro rfl
  rcases precedes with below | ⟨_, below⟩
  · exact List.lt_irrefl _ below
  · exact Nat.lt_irrefl _ below

/-- What a document has at a path under a key. -/
def valueAt? (document : Json) (path key : String) : Option Json :=
  ((document.get? "paths").bind (·.get? path)).bind (·.get? key)

/-- A document describes an action at a place by a value. -/
def DescribedBy (document : Json) (place : Place) (value : Json) : Prop :=
  ∃ key, (key, place.method) ∈ describedMethods ∧ valueAt? document place.path key = some value

/-- The methods are listed in their order. -/
theorem pairwise_describedMethods :
    describedMethods.Pairwise fun first second => methodRank first.2 < methodRank second.2 := by
  decide

/-- Each method is looked for under one key. -/
theorem key_of_describedMethods :
    ∀ first ∈ describedMethods, ∀ second ∈ describedMethods,
      first.2 = second.2 → first.1 = second.1 := by
  decide

/-- At a place there is one value at most. -/
theorem DescribedBy.unique {place : Place} {value other : Json}
    (first : DescribedBy document place value) (second : DescribedBy document place other) :
    value = other := by
  obtain ⟨key, isMethod, found⟩ := first
  obtain ⟨otherKey, isOther, otherFound⟩ := second
  have sameKey : key = otherKey := key_of_describedMethods _ isMethod _ isOther rfl
  rw [sameKey, otherFound] at found
  exact (Option.some.inj found).symm

/-! ## Descriptions -/

/-- A part of a document that describes an action, with the place where it stands. -/
structure Description where
  path : String
  method : String
  value : Json

namespace Description

/-- The action that is described. -/
def action (document : Json) (description : Description) : Action :=
  .ofJson document description.path description.method description.value

/-- The name that a description states for its action. -/
def statedId? (description : Description) : Option String :=
  (description.value.get? "operationId").bind text?

/-- The place where a description stands. -/
def place (description : Description) : Place :=
  ⟨description.path, description.method⟩

/-- Two descriptions stand at different paths or under different methods. -/
def Apart (first second : Description) : Prop :=
  first.path ≠ second.path ∨ first.method ≠ second.method

theorem Apart.ne {first second : Description} (apart : first.Apart second) : first ≠ second := by
  rintro rfl
  rcases apart with otherPath | otherMethod
  · exact otherPath rfl
  · exact otherMethod rfl

end Description

/-- The paths of a document, with what stands there. -/
def pathItems (document : Json) : List (String × Json) :=
  ((document.get? "paths").bind members?).getD []

/-- What is described at one path. -/
def describedAt (path : String) (item : Json) : List Description :=
  describedMethods.filterMap fun (key, method) =>
    (item.get? key).map fun value => ⟨path, method, value⟩

/-- What a document describes, by path and then by method. -/
def described (document : Json) : List Description :=
  (pathItems document).flatMap fun (path, item) => describedAt path item

/-- The actions of a document are those that are described in it. -/
theorem actions_eq_map (document : Json) :
    actions document = (described document).map (·.action document) := by
  rw [actions, described, pathItems, List.map_flatMap]
  refine List.flatMap_congr ?_
  rintro ⟨path, item⟩ _
  simp only [actionsAt, describedAt, List.map_filterMap, Option.map_map]
  rfl

/-- What is described stands at a path of the document and under a method. -/
theorem exists_of_mem_described {description : Description}
    (listed : description ∈ described document) :
    ∃ item key, (description.path, item) ∈ pathItems document ∧
      (key, description.method) ∈ describedMethods ∧ item.get? key = some description.value := by
  obtain ⟨⟨path, item⟩, atPath, listed⟩ := List.mem_flatMap.1 listed
  obtain ⟨⟨key, method⟩, isMethod, made⟩ := List.mem_filterMap.1 listed
  obtain ⟨value, found, rfl⟩ := Option.map_eq_some_iff.1 made
  exact ⟨item, key, atPath, isMethod, found⟩

/-- What is described has one of the methods that are looked for. -/
theorem method_of_mem_described {description : Description}
    (listed : description ∈ described document) :
    description.method ∈ describedMethods.map (·.2) := by
  obtain ⟨_, _, _, isMethod, _⟩ := exists_of_mem_described listed
  exact List.mem_map_of_mem isMethod

/-! ## Canonical documents -/

section

variable (canonical : document.Canonical)

include canonical

/-- The paths of a canonical document are canonical members. -/
theorem canonical_pathItems : Canonical (.obj (pathItems document)) := by
  rw [pathItems]
  cases found : (document.get? "paths").bind members? with
  | none => exact canonical_obj_iff.2 ⟨.nil, nofun⟩
  | some members =>
    obtain ⟨value, found, isObject⟩ := Option.bind_eq_some_iff.1 found
    exact members?_eq_some_iff.1 isObject ▸ canonical.get? found

/-- What a canonical document has to describe an action is canonical. -/
theorem canonical_of_mem_described {description : Description}
    (listed : description ∈ described document) : description.value.Canonical := by
  obtain ⟨item, key, atPath, _, found⟩ := exists_of_mem_described listed
  exact ((canonical_obj_iff.1 (canonical_pathItems canonical)).2 _ atPath).get? found

/-- The descriptions of a canonical document stand in the order of their places. -/
theorem pairwise_precedes :
    (described document).Pairwise fun first second => first.place.Precedes second.place := by
  refine List.pairwise_flatMap.2 ⟨fun (path, item) _ => ?_, ?_⟩
  · -- At one path the methods are in order, for each of them is asked for once.
    refine List.pairwise_filterMap.2
      (pairwise_describedMethods.imp fun below first isFirst second isSecond => ?_)
    obtain ⟨_, _, rfl⟩ := Option.map_eq_some_iff.1 isFirst
    obtain ⟨_, _, rfl⟩ := Option.map_eq_some_iff.1 isSecond
    exact .inr ⟨rfl, below⟩
  · refine (canonical_obj_iff.1 (canonical_pathItems canonical)).1.imp fun below => ?_
    rintro first isFirst second isSecond
    obtain ⟨_, _, found⟩ := List.mem_filterMap.1 isFirst
    obtain ⟨_, _, rfl⟩ := Option.map_eq_some_iff.1 found
    obtain ⟨_, _, found⟩ := List.mem_filterMap.1 isSecond
    obtain ⟨_, _, rfl⟩ := Option.map_eq_some_iff.1 found
    exact .inl (bytesOf_lt_iff.2 below)

/-- No two descriptions of a canonical document stand at the same place. -/
theorem pairwise_described : (described document).Pairwise Description.Apart :=
  (pairwise_precedes canonical).imp fun precedes =>
    not_and_or.1 fun ⟨samePath, sameMethod⟩ =>
      precedes.ne (congrArg₂ Place.mk samePath sameMethod)

/-- The schema of the body of an action in a canonical document is canonical. -/
theorem canonical_bodySchema {action : Action} (listed : action ∈ actions document) {schema : Json}
    (hasBody : action.bodySchema = some schema) : schema.Canonical := by
  rw [actions_eq_map] at listed
  obtain ⟨description, isDescribed, rfl⟩ := List.mem_map.1 listed
  obtain ⟨value, found, rfl⟩ := Option.map_eq_some_iff.1 hasBody
  exact ((canonical_of_mem_described canonical isDescribed).pointer? found).resolve canonical

end

/-! ## Parameters -/

/-- A parameter that is passed in the path is required. -/
theorem required_of_path {action : Action} (listed : action ∈ actions document)
    {parameter : Parameter} (isParameter : parameter ∈ action.parameters)
    (inPath : parameter.location = .path) :
    parameter.required = true := by
  rw [actions_eq_map] at listed
  obtain ⟨description, _, rfl⟩ := List.mem_map.1 listed
  obtain ⟨value, _, read⟩ := List.mem_filterMap.1 isParameter
  simp only [parameterOf?, Option.bind_eq_bind, Option.bind_eq_some_iff] at read
  obtain ⟨_, _, _, _, location, _, _, _, _, _, made⟩ := read
  cases made
  simp only at inPath
  simp [inPath]

end ContextDb.Capability
