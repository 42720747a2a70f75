import ContextDb.Bridge.Request
import ContextDb.Proofs.Conveying
import ContextDb.Proofs.Forms
import ContextDb.Proofs.SortedMap
import ContextDb.Proofs.Traversal

/-!
# Where arguments go

The path of a request takes the arguments that its placeholders name, the query those of
its parameters, and the body what is left. As long as no two of them ask for the same
argument, what each of them gets is what the agent has given.
-/

namespace ContextDb

namespace SortedMap

universe u

/-- Erasing several keys keeps the associations of all others, in their order. -/
theorem toList_foldl_erase {α : Type u} (keys : List String) (map : SortedMap α) :
    (keys.foldl erase map).toList = map.toList.filter fun pair => pair.1 ∉ keys := by
  induction keys generalizing map with
  | nil => simp
  | cons first rest inductionHypothesis =>
    rw [List.foldl_cons, inductionHypothesis, erase, filter, List.filter_filter]
    refine List.filter_congr fun pair _ => ?_
    by_cases same : pair.1 = first <;> simp [same]

/-- Erasing a key leaves those alone that are listed without it. -/
theorem get?_erase_of_mem {α : Type u} {map : SortedMap α} {key other : String}
    {others : List String} (absent : key ∉ others) (member : other ∈ others) :
    (map.erase key).get? other = map.get? other := by
  have different : key ≠ other := fun same => absent (same ▸ member)
  rw [get?_erase, if_neg different]

end SortedMap

namespace Bridge

open Capability Http Text Url

variable {action : Action} {arguments : Arguments} {failure : Failure} {request : Request}

/-! ## What is asked for -/

/-- The names of the placeholders in some segments. -/
def placeholderNames (segments : List (List Char)) : List String :=
  segments.filterMap placeholder?

/-- The names of the placeholders in the path of an action. -/
def placeholders (action : Action) : List String :=
  placeholderNames (pathSegments action)

/-- The names of the parameters of an action in the query. -/
def queryNames (action : Action) : List String :=
  (queryParameters action).map (·.name)

/-- The names of the arguments that the path and the query of an action take. -/
def takenNames (action : Action) : List String :=
  placeholders action ++ queryNames action

/-- The failure that reports what an action lacks: an argument for a placeholder, or one that
is not null for a required parameter of the query. -/
inductive Lacks (action : Action) (arguments : Arguments) : Failure → Prop
  | placeholder {name : String} (asked : name ∈ placeholders action)
      (absent : arguments.get? name = none) :
      Lacks action arguments (.missingPathParameter name)
  | parameter {parameter : Parameter} (asked : parameter ∈ queryParameters action)
      (required : parameter.required = true)
      (absent : arguments.get? parameter.name = none ∨
        arguments.get? parameter.name = some .null) :
      Lacks action arguments (.missingQueryParameter parameter.name)

/-- A segment of a path with the argument in the place of a placeholder. -/
def filledSegment (arguments : Arguments) (segment : List Char) : List Char :=
  match placeholder? segment with
  | none => segment
  | some name => (((arguments.get? name).map argumentText).getD "").toList

/-- A path with segments added to it, with the arguments in the place of placeholders. -/
def filledPath (arguments : Arguments) (path : List Char) (segments : List (List Char)) :
    List Char :=
  segments.foldl (fun path segment => pushSegment path (filledSegment arguments segment)) path

/-- The values that an argument stands for in a query: the elements of an array, and any other
value by itself. Null and a missing argument stand for none. -/
def valuesOf : Option Json → List Json
  | none | some .null => []
  | some (.arr items) => items
  | some value => [value]

/-- The pairs that arguments give for the parameters of a query. -/
def filledPairs (arguments : Arguments) (parameters : List Parameter) : List (String × String) :=
  parameters.flatMap fun parameter =>
    (valuesOf (arguments.get? parameter.name)).map fun value =>
      (parameter.name, argumentText value)

/-! ## Filling paths -/

/-- Arguments that other names do not use up stay the same. -/
theorem filledPath_congr {first second : Arguments} {segments : List (List Char)}
    (same : ∀ name ∈ placeholderNames segments, first.get? name = second.get? name)
    (path : List Char) : filledPath first path segments = filledPath second path segments := by
  refine List.foldl_ext _ _ path fun path segment member => ?_
  have sameSegment : filledSegment first segment = filledSegment second segment := by
    rw [filledSegment, filledSegment]
    cases named : placeholder? segment with
    | none => rfl
    | some name => simp only [same name (List.mem_filterMap.2 ⟨segment, member, named⟩)]
  rw [sameSegment]

/-- A path is filled where every placeholder has an argument, and each argument is used up. -/
theorem fillPath_eq_ok {segments : List (List Char)}
    (distinct : (placeholderNames segments).Nodup)
    (given : ∀ name ∈ placeholderNames segments, arguments.get? name ≠ none) (path : List Char) :
    fillPath path arguments segments =
      .ok (filledPath arguments path segments,
        (placeholderNames segments).foldl SortedMap.erase arguments) := by
  induction segments generalizing path arguments with
  | nil => rfl
  | cons segment rest inductionHypothesis =>
    cases named : placeholder? segment with
    | none =>
      have sameNames : placeholderNames (segment :: rest) = placeholderNames rest :=
        List.filterMap_cons_none named
      rw [sameNames] at distinct given ⊢
      have kept : filledSegment arguments segment = segment := by rw [filledSegment, named]
      rw [fillPath, named, filledPath, List.foldl_cons, kept]
      exact inductionHypothesis distinct given _
    | some name =>
      have names : placeholderNames (segment :: rest) = name :: placeholderNames rest :=
        List.filterMap_cons_some named
      rw [names] at distinct given ⊢
      obtain ⟨notAgain, distinctRest⟩ := List.nodup_cons.1 distinct
      obtain ⟨value, found⟩ := Option.ne_none_iff_exists'.1 (given name List.mem_cons_self)
      -- The argument is used up here, which leaves those of the other placeholders.
      have untouched : ∀ other ∈ placeholderNames rest,
          (arguments.erase name).get? other = arguments.get? other :=
        fun other => SortedMap.get?_erase_of_mem notAgain
      have filled : filledSegment arguments segment = (argumentText value).toList := by
        rw [filledSegment, named]
        simp only [found, Option.map_some, Option.getD_some]
      have givenRest : ∀ other ∈ placeholderNames rest,
          (arguments.erase name).get? other ≠ none := by
        intro other member
        rw [untouched other member]
        exact given other (List.mem_cons_of_mem _ member)
      rw [fillPath, named]
      simp only [found]
      rw [inductionHypothesis distinctRest givenRest, filledPath_congr untouched, filledPath,
        filledPath, List.foldl_cons, List.foldl_cons, filled]

/-- Where the argument of a placeholder is missing, a path is not filled, and what is reported
is missing. -/
theorem fillPath_eq_error {segments : List (List Char)}
    (distinct : (placeholderNames segments).Nodup)
    (lacks : ∃ name ∈ placeholderNames segments, arguments.get? name = none) (path : List Char) :
    ∃ name ∈ placeholderNames segments, arguments.get? name = none ∧
      fillPath path arguments segments = .error (.missingPathParameter name) := by
  induction segments generalizing path arguments with
  | nil => simp [placeholderNames] at lacks
  | cons segment rest inductionHypothesis =>
    cases named : placeholder? segment with
    | none =>
      have sameNames : placeholderNames (segment :: rest) = placeholderNames rest :=
        List.filterMap_cons_none named
      rw [sameNames] at distinct lacks ⊢
      rw [fillPath, named]
      exact inductionHypothesis distinct lacks _
    | some name =>
      have names : placeholderNames (segment :: rest) = name :: placeholderNames rest :=
        List.filterMap_cons_some named
      rw [names] at distinct lacks ⊢
      obtain ⟨notAgain, distinctRest⟩ := List.nodup_cons.1 distinct
      rw [fillPath, named]
      cases found : arguments.get? name with
      | none => exact ⟨name, List.mem_cons_self, found, by simp only [found]⟩
      | some value =>
        obtain ⟨missing, isName, absent⟩ := lacks
        have different : name ≠ missing := by
          rintro rfl
          rw [found] at absent
          cases absent
        have inRest : missing ∈ placeholderNames rest :=
          (List.mem_cons.1 isName).resolve_left (Ne.symm different)
        have absentRest : (arguments.erase name).get? missing = none := by
          rw [SortedMap.get?_erase_of_mem notAgain inRest, absent]
        obtain ⟨other, isOther, otherAbsent, reported⟩ :=
          inductionHypothesis distinctRest ⟨missing, inRest, absentRest⟩
            (pushSegment path (argumentText value).toList)
        rw [SortedMap.get?_erase_of_mem notAgain isOther] at otherAbsent
        exact ⟨other, List.mem_cons_of_mem _ isOther, otherAbsent, by simp only [found, reported]⟩

/-! ## Filling queries -/

/-- An argument is missing where one is required and there is none, or only null. -/
theorem isMissing_iff {parameter : Parameter} {value : Option Json} :
    isMissing parameter value = true ↔
      parameter.required = true ∧ (value = none ∨ value = some .null) := by
  rw [isMissing, Bool.and_eq_true]
  refine and_congr_right fun _ => ?_
  cases value with
  | none => simp
  | some value => cases value <;> simp [Json.isNull]

/-- The pairs of an argument have its values. -/
theorem pairsOf_eq (name : String) (value : Option Json) :
    pairsOf name value = (valuesOf value).map fun value => (name, argumentText value) := by
  cases value with
  | none => rfl
  | some value => cases value <;> rfl

/-- The pairs of all arguments are those of each. -/
theorem filledPairs_eq (arguments : Arguments) (parameters : List Parameter) :
    filledPairs arguments parameters =
      parameters.flatMap fun parameter =>
        pairsOf parameter.name (arguments.get? parameter.name) := by
  simp only [filledPairs, pairsOf_eq]

/-- Where no argument is missing, a query has the pairs of all arguments in the order of the
parameters, and each argument is used up. -/
theorem fillQuery_eq_ok {parameters : List Parameter}
    (distinct : (parameters.map (·.name)).Nodup)
    (given : ∀ parameter ∈ parameters,
      isMissing parameter (arguments.get? parameter.name) = false) :
    fillQuery arguments parameters =
      .ok (filledPairs arguments parameters,
        (parameters.map (·.name)).foldl SortedMap.erase arguments) := by
  induction parameters generalizing arguments with
  | nil => rfl
  | cons parameter others inductionHypothesis =>
    obtain ⟨notAgain, distinctOthers⟩ := List.nodup_cons.1 distinct
    -- An argument is used up where it is taken, which leaves those of the other names.
    have untouched : ∀ other ∈ others,
        (arguments.erase parameter.name).get? other.name = arguments.get? other.name :=
      fun other member => SortedMap.get?_erase_of_mem notAgain (List.mem_map_of_mem member)
    have givenOthers : ∀ other ∈ others,
        isMissing other ((arguments.erase parameter.name).get? other.name) = false := by
      intro other member
      rw [untouched other member]
      exact given other (List.mem_cons_of_mem _ member)
    have samePairs : filledPairs (arguments.erase parameter.name) others =
        filledPairs arguments others := by
      rw [filledPairs, filledPairs, List.flatMap_def, List.flatMap_def]
      exact congrArg _ (List.map_congr_left fun other member => by rw [untouched other member])
    simp only [fillQuery, given parameter List.mem_cons_self, Bool.false_eq_true, if_false,
      inductionHypothesis distinctOthers givenOthers, samePairs, pairsOf_eq]
    rfl

/-- Where an argument is missing, a query is not filled, and what is reported is missing. -/
theorem fillQuery_eq_error {parameters : List Parameter}
    (distinct : (parameters.map (·.name)).Nodup)
    (lacks : ∃ parameter ∈ parameters,
      isMissing parameter (arguments.get? parameter.name) = true) :
    ∃ parameter ∈ parameters, isMissing parameter (arguments.get? parameter.name) = true ∧
      fillQuery arguments parameters = .error (.missingQueryParameter parameter.name) := by
  induction parameters generalizing arguments with
  | nil => simp at lacks
  | cons parameter others inductionHypothesis =>
    obtain ⟨notAgain, distinctOthers⟩ := List.nodup_cons.1 distinct
    have untouched : ∀ other ∈ others,
        (arguments.erase parameter.name).get? other.name = arguments.get? other.name :=
      fun other member => SortedMap.get?_erase_of_mem notAgain (List.mem_map_of_mem member)
    cases missing : isMissing parameter (arguments.get? parameter.name) with
    | true =>
      exact ⟨parameter, List.mem_cons_self, missing, by simp only [fillQuery, missing, if_true]⟩
    | false =>
      obtain ⟨other, member, isMissing⟩ := lacks
      have inOthers : other ∈ others := by
        rcases List.mem_cons.1 member with rfl | inOthers
        · cases missing.symm.trans isMissing
        · exact inOthers
      obtain ⟨reported, isReported, reason, failed⟩ := inductionHypothesis distinctOthers
        ⟨other, inOthers, (untouched other inOthers).symm ▸ isMissing⟩
      refine ⟨reported, List.mem_cons_of_mem _ isReported,
        untouched reported isReported ▸ reason, ?_⟩
      simp only [fillQuery, missing, Bool.false_eq_true, if_false, failed]
      rfl

/-! ## Requests -/

/-- A query as it stands in a target; an empty one does not. -/
def queryOf (pairs : List (String × String)) : Option String :=
  if pairs.isEmpty then none else some (formEncode pairs)

theorem formDecode_queryOf (pairs : List (String × String)) :
    formDecode ((queryOf pairs).getD "") = pairs := by
  cases pairs with
  | nil => rfl
  | cons first others => exact formDecode_formEncode (first :: others)

/-- The target of a request whose path and query are filled. -/
def filledTarget (action : Action) (arguments : Arguments) : Target :=
  ⟨String.ofList (filledPath arguments ['/'] (pathSegments action)),
    queryOf (filledPairs arguments (queryParameters action))⟩

/-- The arguments that neither the path nor the query of an action takes. -/
def leftArguments (action : Action) (arguments : Arguments) : Arguments :=
  (takenNames action).foldl SortedMap.erase arguments

/-- The path takes no argument that the query asks for. -/
theorem get?_without_placeholders (distinct : (takenNames action).Nodup) {parameter : Parameter}
    (asked : parameter ∈ queryParameters action) :
    ((placeholders action).foldl SortedMap.erase arguments).get? parameter.name =
      arguments.get? parameter.name := by
  obtain ⟨_, _, apart⟩ := List.nodup_append.1 distinct
  rw [SortedMap.get?_foldl_erase, if_neg]
  exact fun taken => apart _ taken _ (List.mem_map_of_mem asked) rfl

/-- Where nothing is lacking, the request is made unless its target is too long. -/
theorem buildRequest_of_complete (distinct : (takenNames action).Nodup)
    (complete : ∀ failure, ¬ Lacks action arguments failure) :
    buildRequest action arguments =
      if maxTargetBytes < (filledTarget action arguments).size then .error .targetTooLong
      else .ok (requestFor action.method (filledTarget action arguments)
        (bodyOf action (leftArguments action arguments))) := by
  obtain ⟨distinctNames, distinctParameters, _⟩ := List.nodup_append.1 distinct
  have givenNames : ∀ name ∈ placeholders action, arguments.get? name ≠ none :=
    fun name asked absent => complete _ (.placeholder asked absent)
  have givenParameters : ∀ parameter ∈ queryParameters action, isMissing parameter
      (((placeholders action).foldl SortedMap.erase arguments).get? parameter.name) = false := by
    intro parameter asked
    rw [get?_without_placeholders distinct asked, Bool.eq_false_iff, ne_eq, isMissing_iff]
    exact fun ⟨required, absent⟩ => complete _ (.parameter asked required absent)
  have samePairs : filledPairs ((placeholders action).foldl SortedMap.erase arguments)
      (queryParameters action) = filledPairs arguments (queryParameters action) := by
    rw [filledPairs, filledPairs, List.flatMap_def, List.flatMap_def]
    exact congrArg _ (List.map_congr_left fun parameter asked => by
      rw [get?_without_placeholders distinct asked])
  have path := fillPath_eq_ok distinctNames givenNames ['/']
  have query := fillQuery_eq_ok distinctParameters givenParameters
  rw [samePairs] at query
  have left : ((queryParameters action).map (·.name)).foldl SortedMap.erase
      ((placeholders action).foldl SortedMap.erase arguments) =
        leftArguments action arguments := by
    rw [leftArguments, takenNames, List.foldl_append, queryNames]
  rw [left] at query
  simp only [buildRequest, path, bind, Except.bind]
  rw [placeholders] at query
  simp only [query]
  rfl

/-- Where something is lacking, the failure reports what is. -/
theorem buildRequest_of_lacks (distinct : (takenNames action).Nodup)
    (lacks : Lacks action arguments failure) :
    ∃ reported, Lacks action arguments reported ∧
      buildRequest action arguments = .error reported := by
  obtain ⟨distinctNames, distinctParameters, _⟩ := List.nodup_append.1 distinct
  by_cases inPath : ∃ name ∈ placeholders action, arguments.get? name = none
  · obtain ⟨name, asked, absent, failed⟩ := fillPath_eq_error distinctNames inPath ['/']
    exact ⟨_, .placeholder asked absent, bind_eq_error_iff.2 (.inl failed)⟩
  · have givenNames : ∀ name ∈ placeholders action, arguments.get? name ≠ none :=
      fun name asked absent => inPath ⟨name, asked, absent⟩
    have inQuery : ∃ parameter ∈ queryParameters action, isMissing parameter
        (((placeholders action).foldl SortedMap.erase arguments).get? parameter.name) = true := by
      cases lacks with
      | placeholder asked absent => exact absurd absent (givenNames _ asked)
      | parameter asked required absent =>
        refine ⟨_, asked, ?_⟩
        rw [get?_without_placeholders distinct asked, isMissing_iff]
        exact ⟨required, absent⟩
    obtain ⟨parameter, asked, missing, failed⟩ := fillQuery_eq_error distinctParameters inQuery
    rw [get?_without_placeholders distinct asked, isMissing_iff] at missing
    refine ⟨_, .parameter asked missing.1 missing.2, bind_eq_error_iff.2 (.inr
      ⟨_, fillPath_eq_ok distinctNames givenNames ['/'], bind_eq_error_iff.2 (.inl failed)⟩)⟩

/-- What is left to the body is what the path and the query do not take. -/
theorem get?_leftArguments (name : String) :
    (leftArguments action arguments).get? name =
      if name ∈ takenNames action then none else arguments.get? name :=
  SortedMap.get?_foldl_erase _ _ _

/-- A request that has each argument in its place: those of the placeholders in the path,
those of the parameters in the query and in their order, and in the body all others or the
one named for it. -/
structure Filled (action : Action) (arguments : Arguments) (request : Request) : Prop where
  method : request.method = action.method
  path : request.path =
    String.ofList (filledPath arguments ['/'] (pathSegments action))
  query : formDecode (request.query.getD "") = filledPairs arguments (queryParameters action)
  bodiless : action.bodySchema = none → request.body = ByteArray.empty
  flattened : action.isFlattened = true → Json.Conveys request.body
    (.obj (arguments.toList.filter fun pair => pair.1 ∉ takenNames action))
  wrapped : action.bodySchema ≠ none → action.isFlattened = false →
    "body" ∉ takenNames action →
      Json.Conveys request.body ((arguments.get? "body").getD .null)
  /-- an argument that goes elsewhere does not go to the body as well -/
  withheld : action.bodySchema ≠ none → action.isFlattened = false →
    "body" ∈ takenNames action → Json.Conveys request.body .null

/-- Only an action with a schema for the body has properties of it. -/
theorem bodySchema_of_isFlattened (isFlattened : action.isFlattened = true) :
    action.bodySchema ≠ none := by
  intro noSchema
  rw [Action.isFlattened, Action.bodyProperties?, noSchema] at isFlattened
  cases isFlattened

/-- A body whose properties are arguments of their own has what is left. -/
theorem bodyOf_of_flattened (isFlattened : action.isFlattened = true) (left : Arguments) :
    bodyOf action left = some (.obj left.toList) := by
  have hasSchema : ¬action.bodySchema.isNone = true := by
    simpa using bodySchema_of_isFlattened isFlattened
  rw [bodyOf, if_neg hasSchema, if_pos isFlattened]

/-- Any other body is the argument that is named for it. -/
theorem bodyOf_of_wrapped (hasSchema : action.bodySchema ≠ none)
    (notFlattened : action.isFlattened = false) (left : Arguments) :
    bodyOf action left = some ((left.get? "body").getD .null) := by
  have hasSchema : ¬action.bodySchema.isNone = true := by simpa using hasSchema
  rw [bodyOf, if_neg hasSchema, if_neg (Bool.eq_false_iff.1 notFlattened)]

/-- The request that is made of arguments has each of them in its place. -/
theorem filled_requestFor :
    Filled action arguments (requestFor action.method (filledTarget action arguments)
      (bodyOf action (leftArguments action arguments))) where
  method := rfl
  path := rfl
  query := formDecode_queryOf _
  bodiless noSchema := by
    rw [bodyOf, noSchema]
    rfl
  flattened isFlattened := by
    rw [bodyOf_of_flattened isFlattened, leftArguments, SortedMap.toList_foldl_erase]
    exact Json.conveys_render _
  wrapped hasSchema notFlattened notTaken := by
    rw [bodyOf_of_wrapped hasSchema notFlattened, get?_leftArguments, if_neg notTaken]
    exact Json.conveys_render _
  withheld hasSchema notFlattened taken := by
    rw [bodyOf_of_wrapped hasSchema notFlattened, get?_leftArguments, if_pos taken]
    exact Json.conveys_render _

/-- What is lacking is reported as parameters with which nothing can be called. -/
theorem Lacks.code (lacks : Lacks action arguments failure) :
    failure.code = Failure.invalidParameters := by
  cases lacks <;> rfl

/-- Each argument goes to one place. As long as no two placeholders and parameters of the
query have the same name, a call is refused as one with invalid parameters exactly if an
argument is lacking. Otherwise a request is made unless its target is too long, and in a
request each argument is in its place and in no other. -/
theorem arguments_go_to_one_place (action : Action) (arguments : Arguments)
    (distinct : (placeholders action ++ queryNames action).Nodup) :
    ((∃ failure, buildRequest action arguments = .error failure ∧
        failure.code = Failure.invalidParameters) ↔
      ∃ failure, Lacks action arguments failure) ∧
    ((∀ failure, ¬ Lacks action arguments failure) →
      (∃ request, buildRequest action arguments = .ok request) ∨
      (buildRequest action arguments = .error .targetTooLong ∧
        maxTargetBytes < (filledTarget action arguments).size)) ∧
    (∀ name ∈ placeholders action, name ∉ queryNames action) ∧
    ∀ request, buildRequest action arguments = .ok request → Filled action arguments request := by
  have complete_or : (∀ failure, ¬ Lacks action arguments failure) ∨
      ∃ failure, Lacks action arguments failure := by
    by_cases lacks : ∃ failure, Lacks action arguments failure
    · exact .inr lacks
    · exact .inl fun failure here => lacks ⟨failure, here⟩
  refine ⟨⟨?_, ?_⟩, ?_, ?_, ?_⟩
  · rintro ⟨failure, failed, code⟩
    refine complete_or.resolve_left fun complete => ?_
    rw [buildRequest_of_complete distinct complete] at failed
    split at failed
    · cases failed
      cases code
    · cases failed
  · rintro ⟨failure, lacks⟩
    obtain ⟨reported, lacksReported, failed⟩ := buildRequest_of_lacks distinct lacks
    exact ⟨reported, failed, lacksReported.code⟩
  · intro complete
    rw [buildRequest_of_complete distinct complete]
    split
    · rename_i tooLong
      exact .inr ⟨rfl, tooLong⟩
    · exact .inl ⟨_, rfl⟩
  · intro name inPath inQuery
    exact (List.nodup_append.1 distinct).2.2 name inPath name inQuery rfl
  · intro request built
    rcases complete_or with complete | ⟨failure, lacks⟩
    · rw [buildRequest_of_complete distinct complete] at built
      split at built
      · cases built
      · cases built
        exact filled_requestFor
    · obtain ⟨reported, _, failed⟩ := buildRequest_of_lacks distinct lacks
      cases failed.symm.trans built

/-- An action with arguments in the path, in the query and in the body. -/
def annotate : Action where
  method := "POST"
  path := "/books/{id}/notes"
  id := "annotate"
  tags := []
  summary := none
  description := none
  parameters :=
    [⟨"id", .path, true, plainSchema⟩, ⟨"page", .query, true, plainSchema⟩,
      ⟨"mark", .query, false, plainSchema⟩]
  bodySchema := some (.obj [("properties", .obj [("text", plainSchema)])])

/-- A note with a number, with several marks and with more than is asked for. -/
def remark : Arguments :=
  .ofList [("id", .str "a b"), ("page", .ofNat 7), ("mark", .arr [.str "red", .null]),
    ("text", .str "so?"), ("by", .null)]

/-- The note is sent with each argument in its place. -/
theorem remark_is_filled :
    (placeholders annotate ++ queryNames annotate).Nodup ∧
      ∃ request, buildRequest annotate remark = .ok request ∧
        request.path = "/books/a%20b/notes" ∧
        formDecode (request.query.getD "") = [("page", "7"), ("mark", "red"), ("mark", "null")] ∧
        request.body = "\x7b\"by\":null,\"text\":\"so?\"\x7d".toUTF8 ∧
        Json.Conveys request.body (.obj [("by", .null), ("text", .str "so?")]) := by
  have distinct : (placeholders annotate ++ queryNames annotate).Nodup := by decide
  obtain ⟨_, built, _, filled⟩ := arguments_go_to_one_place annotate remark distinct
  have complete : ∀ failure, ¬ Lacks annotate remark failure := by
    intro failure lacks
    cases lacks with
    | placeholder asked absent =>
      have given : ∀ name ∈ placeholders annotate, remark.contains name = true := by decide
      have present := given _ asked
      rw [SortedMap.contains, absent] at present
      cases present
    | parameter asked required absent =>
      have given : ∀ parameter ∈ queryParameters annotate,
          isMissing parameter (remark.get? parameter.name) = false := by decide
      have missing := isMissing_iff.2 ⟨required, absent⟩
      rw [given _ asked] at missing
      cases missing
  rcases built complete with ⟨request, built⟩ | ⟨_, tooLong⟩
  · have body := (filled request built).flattened rfl
    refine ⟨distinct, request, built, ?_, ?_, body.printed.trans (by decide), body⟩
    · rw [(filled request built).path]
      decide
    · rw [(filled request built).query]
      decide
  · exact absurd tooLong (by decide)

/-- An action with a parameter that is named like the argument for its body. -/
def whisper : Action where
  method := "POST"
  path := "/whispers"
  id := "whisper"
  tags := []
  summary := none
  description := none
  parameters := [⟨"body", .query, false, plainSchema⟩]
  bodySchema := some plainSchema

/-- What the query takes is not left to the body, even if it is named for it. -/
theorem whisper_is_not_in_body :
    (placeholders whisper ++ queryNames whisper).Nodup ∧ whisper.isFlattened = false ∧
      (SortedMap.ofList [("body", Json.str "psst")]).get? "body" = some (.str "psst") ∧
      ∃ request, buildRequest whisper (.ofList [("body", .str "psst")]) = .ok request ∧
        request.query = some "body=psst" ∧ request.body = "null".toUTF8 ∧
        request.body ≠ (Json.str "psst").render.toUTF8 := by
  refine ⟨by decide, rfl, rfl, _, rfl, by decide, by decide, by decide⟩

end Bridge

end ContextDb
