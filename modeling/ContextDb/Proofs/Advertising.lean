import ContextDb.Proofs.Descriptions
import ContextDb.Proofs.Filling

/-!
# What a schema of arguments promises

The schema of the arguments of an action and the request that is made of arguments are
computed apart from each other. An agent that gives what the schema requires lacks nothing
that the request is made of.
-/

namespace ContextDb.Bridge

open Capability Http Json

variable {document : Json} {action : Action} {fields properties : List (String × Json)}
  {needs required : List Json} {arguments : Arguments}

/-! ## What is asked for -/

/-- What the body of an action asks for, and what of it is needed: an object asks for its
properties and needs those that it states, and any other body is asked for and needed itself. -/
inductive BodyAsks (action : Action) : List (String × Json) → List Json → Prop
  | nothing (bodiless : action.bodySchema = none) : BodyAsks action [] []
  | stated {schema : Json} {fields : List (String × Json)} {needs : List Json}
      (hasBody : action.bodySchema = some schema)
      (isObject : schema.get? "properties" = some (.obj fields))
      (states : schema.get? "required" = some (.arr needs)) : BodyAsks action fields needs
  | unstated {schema : Json} {fields : List (String × Json)}
      (hasBody : action.bodySchema = some schema)
      (isObject : schema.get? "properties" = some (.obj fields))
      (states : ∀ needs, schema.get? "required" ≠ some (.arr needs)) : BodyAsks action fields []
  | whole {schema : Json} (hasBody : action.bodySchema = some schema)
      (noObject : ∀ fields, schema.get? "properties" ≠ some (.obj fields)) :
      BodyAsks action [("body", schema)] [.str "body"]

/-- A parameter is needed if it is passed in the path or stated to be required. -/
def Needed (action : Action) (name : String) : Prop :=
  ∃ parameter ∈ action.parameters,
    (parameter.location = .path ∨ parameter.required = true) ∧ parameter.name = name

/-- A schema of an object with some properties, of which some are required. -/
structure Promises (schema : Json) (properties : List (String × Json)) (required : List Json) :
    Prop where
  type : schema.get? "type" = some (.str "object")
  properties : schema.get? "properties" = some (.obj properties)
  /-- where nothing is required, nothing is said about it -/
  required : schema.get? "required" = if required.isEmpty then none else some (.arr required)

/-- Arguments have a value that is not null for each required name. -/
def Supplies (arguments : Arguments) (required : List Json) : Prop :=
  ∀ name, .str name ∈ required → ∃ value, arguments.get? name = some value ∧ value ≠ .null

/-! ## What is listed -/

/-- The properties of a body are those of an object. -/
theorem properties_of_body {schema : Json} (hasBody : action.bodySchema = some schema) :
    action.bodyProperties? = some fields ↔ schema.get? "properties" = some (.obj fields) := by
  rw [Action.bodyProperties?, hasBody, Option.bind_some, Option.bind_eq_some_iff]
  constructor
  · rintro ⟨value, found, isObject⟩
    rw [found, members?_eq_some_iff.1 isObject]
  · exact fun found => ⟨_, found, rfl⟩

/-- What a body asks for is one thing. -/
theorem BodyAsks.bodyArguments (asks : BodyAsks action fields needs) :
    action.bodyArguments = (fields, needs) := by
  cases asks with
  | nothing bodiless => rw [Action.bodyArguments, bodiless]
  | stated hasBody isObject states =>
    simp only [Action.bodyArguments, hasBody, (properties_of_body hasBody).2 isObject, states]
    rfl
  | unstated hasBody isObject states =>
    rename_i schema
    have none : (schema.get? "required").bind items? = none := by
      refine Option.eq_none_iff_forall_ne_some.2 fun needs found => ?_
      obtain ⟨value, found, isArray⟩ := Option.bind_eq_some_iff.1 found
      exact states needs (found.trans (congrArg some (items?_eq_some_iff.1 isArray)))
    simp only [Action.bodyArguments, hasBody, (properties_of_body hasBody).2 isObject, none]
    rfl
  | whole hasBody noObject =>
    have none : action.bodyProperties? = none :=
      Option.eq_none_iff_forall_ne_some.2 fun fields found =>
        noObject fields ((properties_of_body hasBody).1 found)
    simp only [Action.bodyArguments, hasBody, none]

/-- Every body asks for something or for nothing. -/
theorem exists_bodyAsks (action : Action) : ∃ fields needs, BodyAsks action fields needs := by
  cases hasBody : action.bodySchema with
  | none => exact ⟨_, _, .nothing hasBody⟩
  | some schema =>
    by_cases isObject : ∃ fields, schema.get? "properties" = some (.obj fields)
    · obtain ⟨fields, isObject⟩ := isObject
      by_cases states : ∃ needs, schema.get? "required" = some (.arr needs)
      · obtain ⟨needs, states⟩ := states
        exact ⟨_, _, .stated hasBody isObject states⟩
      · exact ⟨_, _, .unstated hasBody isObject fun needs states' => states ⟨needs, states'⟩⟩
    · exact ⟨_, _, .whole hasBody fun fields isObject' => isObject ⟨fields, isObject'⟩⟩

/-- In a canonical document, a body does not ask for one name twice. -/
theorem BodyAsks.nodup (asks : BodyAsks action fields needs) (canonical : document.Canonical)
    (listed : action ∈ actions document) : (fields.map (·.1)).Nodup := by
  cases asks with
  | nothing => exact .nil
  | stated hasBody isObject | unstated hasBody isObject =>
    exact ((canonical_bodySchema canonical listed hasBody).get? isObject).nodup_names
  | whole => exact List.nodup_singleton _

/-- The names of the parameters that are required. -/
def requiredNames (action : Action) : List Json :=
  (action.parameters.filter (·.required)).map fun parameter => .str parameter.name

/-- The schema of arguments promises the properties of the parameters and of the body. -/
theorem BodyAsks.promises (asks : BodyAsks action fields needs) :
    Promises action.inputSchema
      (canonicalMembers (action.parameters.map (fun parameter =>
        (parameter.name, parameter.schema)) ++ fields))
      (requiredNames action ++ needs) := by
  rw [Action.inputSchema, asks.bodyArguments, ← requiredNames]
  refine ⟨?_, rfl, ?_⟩
  · dsimp only
    split <;> rfl
  · dsimp only
    split <;> rfl

/-- Distinct members in canonical order are the same members. -/
theorem mem_canonicalMembers_iff (distinct : (properties.map (·.1)).Nodup) {name : String}
    {schema : Json} : (name, schema) ∈ canonicalMembers properties ↔ (name, schema) ∈ properties :=
  SortedMap.mem_toList_iff.trans (SortedMap.get?_ofList_iff distinct)

/-- The required parameters are those that are needed. -/
theorem mem_requiredNames_iff (listed : action ∈ actions document) {value : Json} :
    value ∈ requiredNames action ↔ ∃ name, Needed action name ∧ value = .str name := by
  simp only [requiredNames, List.mem_map, List.mem_filter]
  constructor
  · rintro ⟨parameter, ⟨isParameter, isRequired⟩, rfl⟩
    exact ⟨parameter.name, ⟨parameter, isParameter, .inr isRequired, rfl⟩, rfl⟩
  · rintro ⟨_, ⟨parameter, isParameter, inPath | isRequired, rfl⟩, rfl⟩
    · exact ⟨parameter, ⟨isParameter, required_of_path listed isParameter inPath⟩, rfl⟩
    · exact ⟨parameter, ⟨isParameter, isRequired⟩, rfl⟩

/-- Parameters with distinct names are required once. -/
theorem nodup_requiredNames (distinct : (action.parameters.map (·.name)).Nodup) :
    (requiredNames action).Nodup := by
  have distinctNames : ((action.parameters.filter (·.required)).map (·.name)).Nodup :=
    distinct.sublist (List.filter_sublist.map _)
  have injective : Function.Injective Json.str := fun _ _ => Json.str.inj
  have sameNames : requiredNames action =
      ((action.parameters.filter (·.required)).map (·.name)).map Json.str := by
    rw [List.map_map]
    rfl
  rw [sameNames]
  exact distinctNames.map injective

/-! ## What is sent -/

/-- No argument is asked for in the path and in the query. -/
theorem nodup_takenNames (distinctPlaceholders : (placeholders action).Nodup)
    (declared : ∀ name ∈ placeholders action, ∃ parameter ∈ action.parameters,
      parameter.location = .path ∧ parameter.name = name)
    (distinct : (action.parameters.map (·.name)).Nodup) : (takenNames action).Nodup := by
  refine List.nodup_append.2 ⟨distinctPlaceholders, ?_, ?_⟩
  · exact distinct.sublist (List.filter_sublist.map _)
  · rintro name inPath _ inQuery rfl
    obtain ⟨parameter, isParameter, atPath, rfl⟩ := declared name inPath
    obtain ⟨other, isOther, same⟩ := List.mem_map.1 inQuery
    obtain ⟨isOther, atQuery⟩ := List.mem_filter.1 isOther
    rw [List.inj_on_of_nodup_map distinct isOther isParameter same, atPath] at atQuery
    exact absurd atQuery (by decide)

/-- Arguments that supply what is needed lack nothing. -/
theorem not_lacks_of_supplies
    (declared : ∀ name ∈ placeholders action, ∃ parameter ∈ action.parameters,
      parameter.location = .path ∧ parameter.name = name)
    (asked : ∀ name, Needed action name → .str name ∈ required)
    (supplies : Supplies arguments required) (failure : Failure) :
    ¬ Lacks action arguments failure := by
  intro lacks
  cases lacks with
  | placeholder inPath absent =>
    obtain ⟨parameter, isParameter, atPath, rfl⟩ := declared _ inPath
    obtain ⟨value, found, _⟩ := supplies _ (asked _ ⟨parameter, isParameter, .inl atPath, rfl⟩)
    cases absent.symm.trans found
  | parameter inQuery isRequired absent =>
    obtain ⟨isParameter, _⟩ := List.mem_filter.1 inQuery
    obtain ⟨value, found, notNull⟩ :=
      supplies _ (asked _ ⟨_, isParameter, .inr isRequired, rfl⟩)
    rcases absent with absent | isNull
    · cases absent.symm.trans found
    · cases isNull.symm.trans found
      exact notNull rfl

/-- A schema of arguments keeps its promise. In a canonical document, let the placeholders of
an action be distinct and declared as parameters in the path, and let its parameters have
distinct names, none of which its body asks for. Then the properties of the schema are those
of the parameters and of the body, each under one name. What is required is what is needed
of both, without repetition exactly if the body needs nothing twice and no needed parameter
again. Arguments that supply it make a request, unless the target is too long. -/
theorem schema_keeps_its_promise (document : Json) (action : Action)
    (canonical : document.Canonical) (listed : action ∈ actions document)
    (distinctPlaceholders : (placeholders action).Nodup)
    (declared : ∀ name ∈ placeholders action, ∃ parameter ∈ action.parameters,
      parameter.location = .path ∧ parameter.name = name)
    (distinct : (action.parameters.map (·.name)).Nodup)
    (apart : ∀ fields needs, BodyAsks action fields needs →
      ∀ name ∈ fields.map (·.1), name ∉ action.parameters.map (·.name)) :
    ∃ fields needs properties required,
      BodyAsks action fields needs ∧
      Promises action.inputSchema properties required ∧
      (properties.map (·.1)).Nodup ∧
      (∀ name schema, (name, schema) ∈ properties ↔
        (∃ parameter ∈ action.parameters, parameter.name = name ∧ parameter.schema = schema) ∨
          (name, schema) ∈ fields) ∧
      (∀ value, value ∈ required ↔
        (∃ name, Needed action name ∧ value = .str name) ∨ value ∈ needs) ∧
      (required.Nodup ↔ needs.Nodup ∧ ∀ name, Needed action name → .str name ∉ needs) ∧
      ∀ arguments, Supplies arguments required →
        (∃ request, buildRequest action arguments = .ok request) ∨
        (buildRequest action arguments = .error .targetTooLong ∧
          maxTargetBytes < (filledTarget action arguments).size) := by
  obtain ⟨fields, needs, asks⟩ := exists_bodyAsks action
  have distinctPairs : ((action.parameters.map (fun parameter =>
      (parameter.name, parameter.schema)) ++ fields).map (·.1)).Nodup := by
    rw [List.map_append, List.map_map]
    refine List.nodup_append.2 ⟨distinct, asks.nodup canonical listed, ?_⟩
    rintro name isParameter _ isField rfl
    exact apart fields needs asks name isField isParameter
  have mem_required_iff : ∀ value, value ∈ requiredNames action ++ needs ↔
      (∃ name, Needed action name ∧ value = .str name) ∨ value ∈ needs := fun value => by
    rw [List.mem_append, mem_requiredNames_iff listed]
  refine ⟨fields, needs, _, _, asks, asks.promises, ?_, ?_, mem_required_iff, ?_, ?_⟩
  · exact SortedMap.nodup_keys _
  · intro name schema
    rw [mem_canonicalMembers_iff distinctPairs, List.mem_append]
    simp only [List.mem_map, Prod.mk.injEq]
  · rw [List.nodup_append]
    constructor
    · rintro ⟨_, distinctNeeds, disjoint⟩
      refine ⟨distinctNeeds, fun name needed again => ?_⟩
      exact disjoint _ ((mem_requiredNames_iff listed).2 ⟨name, needed, rfl⟩) _ again rfl
    · rintro ⟨distinctNeeds, disjoint⟩
      refine ⟨nodup_requiredNames distinct, distinctNeeds, ?_⟩
      rintro _ isRequired value again rfl
      obtain ⟨name, needed, rfl⟩ := (mem_requiredNames_iff listed).1 isRequired
      exact disjoint name needed again
  · intro arguments supplies
    have asked : ∀ name, Needed action name → .str name ∈ requiredNames action ++ needs :=
      fun name needed => (mem_required_iff _).2 (.inl ⟨name, needed, rfl⟩)
    rw [buildRequest_of_complete (nodup_takenNames distinctPlaceholders declared distinct)
      (not_lacks_of_supplies declared asked supplies)]
    split
    · rename_i tooLong
      exact .inr ⟨rfl, tooLong⟩
    · exact .inl ⟨_, rfl⟩

/-- A document with one action that takes its arguments from everywhere: one parameter is
described in place and one elsewhere, one is passed in a header, and so is the body. -/
def notebook : Json :=
  .obj [
    ("components", .obj [
      ("note", .obj [
        ("properties", .obj [("by", plainSchema), ("text", plainSchema)]),
        ("required", .arr [.str "text"])]),
      ("page", .obj [("in", .str "query"), ("name", .str "page"), ("required", .bool true)])]),
    ("paths", .obj [("/books/{id}/notes", .obj [("post", .obj [
      ("parameters", .arr [
        .obj [("in", .str "path"), ("name", .str "id")],
        .obj [("$ref", .str "#/components/page")],
        .obj [("in", .str "header"), ("name", .str "trace")]]),
      ("requestBody", .obj [("content", .obj [("application/json", .obj [
        ("schema", .obj [("$ref", .str "#/components/note")])])])])])])])]

/-- The action of the notebook. -/
def takeNote : Action where
  method := "POST"
  path := "/books/{id}/notes"
  id := "post_books_id_notes"
  tags := []
  summary := none
  description := none
  parameters := [⟨"id", .path, true, plainSchema⟩, ⟨"page", .query, true, plainSchema⟩]
  bodySchema := some (.obj [
    ("properties", .obj [("by", plainSchema), ("text", plainSchema)]),
    ("required", .arr [.str "text"])])

theorem actions_notebook : actions notebook = [takeNote] := by
  rfl

/-- The placeholder of the notebook and its parameters are told apart, and a note that has what
is required is sent. -/
theorem note_is_taken :
    notebook.Canonical ∧ takeNote ∈ actions notebook ∧ placeholders takeNote = ["id"] ∧
      takeNote.parameters.map (·.name) = ["id", "page"] ∧
      ∃ properties required, Promises takeNote.inputSchema properties required ∧
        properties.map (·.1) = ["by", "id", "page", "text"] ∧
        required = [.str "id", .str "page", .str "text"] ∧
        ∃ request, buildRequest takeNote
          (.ofList [("id", .ofNat 1), ("page", .ofNat 7), ("text", .str "so?")]) = .ok request := by
  have canonical : notebook.Canonical := by decide
  have listed : takeNote ∈ actions notebook := by
    rw [actions_notebook]
    exact List.mem_singleton_self _
  have names : placeholders takeNote = ["id"] := by decide
  have declared : ∀ name ∈ placeholders takeNote, ∃ parameter ∈ takeNote.parameters,
      parameter.location = .path ∧ parameter.name = name := by
    rw [names]
    simp [takeNote]
  have apart : ∀ fields needs, BodyAsks takeNote fields needs →
      ∀ name ∈ fields.map (·.1), name ∉ takeNote.parameters.map (·.name) := by
    intro fields needs asks
    cases asks.bodyArguments
    decide
  obtain ⟨fields, needs, properties, required, _, promises, _, _, _, _, sent⟩ :=
    schema_keeps_its_promise notebook takeNote canonical listed (names ▸ by decide) declared
      (by decide) apart
  have required_eq : required = [.str "id", .str "page", .str "text"] := by
    have stated : some (Json.arr [.str "id", .str "page", .str "text"]) =
        if required.isEmpty then none else some (.arr required) := promises.required
    split at stated
    · cases stated
    · cases stated
      rfl
  have properties_eq := promises.properties
  cases properties_eq
  refine ⟨canonical, listed, names, rfl, _, required, promises, rfl, required_eq, ?_⟩
  refine (sent _ ?_).resolve_right fun ⟨_, tooLong⟩ => absurd tooLong (by decide)
  rw [required_eq]
  intro name isRequired
  simp only [List.mem_cons, Json.str.injEq, List.not_mem_nil, or_false] at isRequired
  rcases isRequired with rfl | rfl | rfl
  · exact ⟨_, rfl, nofun⟩
  · exact ⟨_, rfl, nofun⟩
  · exact ⟨_, rfl, nofun⟩

/-- A document whose body needs the parameter that it is found by. -/
def ledger : Json :=
  .obj [("paths", .obj [("/books/{id}", .obj [("put", .obj [
    ("parameters", .arr [.obj [("in", .str "path"), ("name", .str "id")]]),
    ("requestBody", .obj [("content", .obj [("application/json", .obj [
      ("schema", .obj [("properties", .obj []), ("required", .arr [.str "id"])])])])])])])])]

/-- The action of the ledger. -/
def enter : Action where
  method := "PUT"
  path := "/books/{id}"
  id := "put_books_id"
  tags := []
  summary := none
  description := none
  parameters := [⟨"id", .path, true, plainSchema⟩]
  bodySchema := some (.obj [("properties", .obj []), ("required", .arr [.str "id"])])

/-- A parameter that the body needs as well is required twice, though the body asks for nothing
and needs nothing twice. -/
theorem ledger_requires_twice :
    ledger.Canonical ∧ actions ledger = [enter] ∧ placeholders enter = ["id"] ∧
      enter.parameters = [⟨"id", .path, true, plainSchema⟩] ∧ BodyAsks enter [] [.str "id"] ∧
      [Json.str "id"].Nodup ∧
      ∃ required, enter.inputSchema.get? "required" = some (.arr required) ∧ ¬ required.Nodup := by
  refine ⟨by decide, rfl, by decide, rfl, .stated rfl rfl rfl, List.nodup_singleton _,
    [.str "id", .str "id"], rfl, ?_⟩
  exact fun distinct => (List.nodup_cons.1 distinct).1 (List.mem_singleton_self _)

end ContextDb.Bridge
