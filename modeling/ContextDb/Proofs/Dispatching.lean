import ContextDb.Proofs.Routing
import ContextDb.Proofs.Traversal

/-!
# The paths of requests

The path of a request that the bridge makes is the path of its endpoint, with the
argument pushed in the place of the capture. So its parts are known, whatever the
argument is.
-/

namespace ContextDb

open Text Url

namespace Rest

/-! ## The paths of endpoints -/

/-- A name that stands in a path as it is and is no placeholder. -/
structure FixedName (name : List Char) : Prop where
  plain : Plain name
  noPlaceholder : Bridge.placeholder? name = none

instance (name : List Char) : Decidable (FixedName name) :=
  decidable_of_iff (Plain name ∧ Bridge.placeholder? name = none)
    ⟨fun ⟨plain, noPlaceholder⟩ => ⟨plain, noPlaceholder⟩,
      fun ⟨plain, noPlaceholder⟩ => ⟨plain, noPlaceholder⟩⟩

/-- The text of a fixed segment. -/
def Segment.fixed? : Segment → Option String
  | .literal text => some text
  | .capture _ => none

variable {endpoint : Endpoint}

/-- The texts that are fixed in the path of an endpoint are names. -/
theorem Endpoint.fixedName {text : String} (member : .literal text ∈ endpoint.segments) :
    FixedName text.toList := by
  have names : ∀ endpoint : Endpoint, ∀ text ∈ endpoint.segments.filterMap Segment.fixed?,
      FixedName text.toList := by
    decide +kernel
  exact names endpoint text (List.mem_filterMap.2 ⟨_, member, rfl⟩)

/-- The segments of an endpoint are described by names. -/
theorem Endpoint.segment_is_name {segment : Segment} (member : segment ∈ endpoint.segments) :
    '/' ∉ segment.template.toList ∧ segment.template.toList ≠ [] := by
  have names : ∀ endpoint : Endpoint, ∀ segment ∈ endpoint.segments,
      '/' ∉ segment.template.toList ∧ segment.template.toList ≠ [] := by
    decide +kernel
  exact names endpoint segment member

/-- The texts in front of a session identifier. -/
def sessionTexts : List String := ["api", "v1", "sessions"]

/-- The segments of the path of one session, and what follows there. -/
def sessionPath (after : List String) : List Segment :=
  sessionTexts.map .literal ++ .capture sessionCapture :: after.map .literal

/-- The path of an endpoint is fixed or is that of a session. -/
theorem Endpoint.segments_cases (endpoint : Endpoint) :
    (∃ first others, endpoint.segments = (first :: others).map .literal) ∨
      ∃ after, endpoint.segments = sessionPath after := by
  cases endpoint
  case health => exact .inl ⟨"health", [], rfl⟩
  case getSession => exact .inr ⟨[], rfl⟩
  case deleteSession => exact .inr ⟨[], rfl⟩
  case addMessage => exact .inr ⟨["messages"], rfl⟩
  all_goals exact .inl ⟨_, _, rfl⟩

end Rest

namespace Bridge

open Rest Capability

variable {endpoint : Endpoint} {arguments : Arguments} {request : Http.Request}

/-! ## Filling paths -/

/-- The path of an endpoint has a slash before each of its segments. -/
theorem toList_template (endpoint : Endpoint) :
    endpoint.template.toList = spell (endpoint.segments.map (·.template.toList)) := by
  simp [Endpoint.template, spell, List.flatMap_map, String.toList_join]

/-- The segments of an action are those of its endpoint. -/
theorem pathSegments_action (endpoint : Endpoint) :
    pathSegments endpoint.action = endpoint.segments.map (·.template.toList) := by
  have isName : ∀ name ∈ endpoint.segments.map (·.template.toList), '/' ∉ name ∧ name ≠ [] := by
    intro name member
    obtain ⟨segment, inPath, rfl⟩ := List.mem_map.1 member
    exact Endpoint.segment_is_name inPath
  have kept : ∀ name ∈ endpoint.segments.map (·.template.toList), (!name.isEmpty) = true := by
    intro name member
    simpa using (isName name member).2
  rw [pathSegments, Endpoint.action_path, toList_template,
    pieces_spell fun name member => (isName name member).1, List.filter_cons_of_neg (by simp),
    List.filter_eq_self.2 kept]

/-- Fixed names are added to a path as they are. -/
theorem fillPath_fixed {names fixed : List (List Char)} (long : 1 < (spell names).length)
    (areFixed : ∀ name ∈ fixed, FixedName name) (rest : List (List Char)) :
    fillPath (spell names) arguments (fixed ++ rest) =
      fillPath (spell (names ++ fixed)) arguments rest := by
  induction fixed generalizing names with
  | nil => simp
  | cons name fixed inductionHypothesis =>
    have isFixed := areFixed name List.mem_cons_self
    have added : pushSegment (spell names) name = spell (names ++ [name]) := by
      rw [pushSegment_plain isFixed.plain, if_pos long]
      simp
    have longer : 1 < (spell (names ++ [name])).length := by
      rw [spell_append, List.length_append]
      omega
    rw [List.cons_append, fillPath, isFixed.noPlaceholder]
    simp only
    rw [added, inductionHypothesis longer fun each member =>
      areFixed each (List.mem_cons_of_mem _ member), List.append_assoc]
    rfl

/-- Fixed names make a path of their own. -/
theorem fillPath_root {first : List Char} {others : List (List Char)} (nonempty : first ≠ [])
    (areFixed : ∀ name ∈ first :: others, FixedName name) (rest : List (List Char)) :
    fillPath ['/'] arguments (first :: others ++ rest) =
      fillPath (spell (first :: others)) arguments rest := by
  have isFixed := areFixed first List.mem_cons_self
  have added : pushSegment ['/'] first = spell [first] := by
    rw [pushSegment_plain isFixed.plain]
    simp
  have long : 1 < (spell [first]).length := by
    have positive := List.length_pos_iff.2 nonempty
    simpa using positive
  rw [List.cons_append, fillPath, isFixed.noPlaceholder]
  simp only
  rw [added, fillPath_fixed long fun each member => areFixed each (List.mem_cons_of_mem _ member)]
  rfl

/-- The path of an endpoint without a capture is its own. -/
theorem fillPath_of_fixed {first : String} {others : List String}
    (fixed : endpoint.segments = (first :: others).map .literal) :
    fillPath ['/'] arguments (pathSegments endpoint.action) =
      .ok (spell ((first :: others).map String.toList), arguments) := by
  have isFixed : ∀ text ∈ first :: others, .literal text ∈ endpoint.segments := by
    intro text member
    rw [fixed]
    exact List.mem_map.2 ⟨text, member, rfl⟩
  have names : ∀ name ∈ (first :: others).map String.toList, FixedName name := by
    intro name member
    obtain ⟨text, inTexts, rfl⟩ := List.mem_map.1 member
    exact Endpoint.fixedName (isFixed text inTexts)
  have nonempty : first.toList ≠ [] :=
    (Endpoint.segment_is_name (isFixed first List.mem_cons_self)).2
  have segmentNames : pathSegments endpoint.action = (first :: others).map String.toList := by
    rw [pathSegments_action, fixed, List.map_map]
    rfl
  have filled : fillPath ['/'] arguments ((first :: others).map String.toList ++ []) =
      fillPath (spell ((first :: others).map String.toList)) arguments [] :=
    fillPath_root nonempty names []
  rw [List.append_nil] at filled
  rw [segmentNames, filled, fillPath]

/-- The names in front of a session identifier. -/
def sessionNames : List (List Char) := sessionTexts.map String.toList

/-- Whatever is pushed in the place of a session identifier, the path stays below the
versioned root. -/
theorem pushed_sessionNames (text : List Char) :
    ∃ third rest, pushed sessionNames text = "api".toList :: "v1".toList :: third :: rest ∧
      (third = "sessions".toList ∨ third = []) := by
  unfold pushed
  split
  · exact ⟨_, _, rfl, .inl rfl⟩
  · split
    · exact ⟨_, _, rfl, .inr rfl⟩
    · split
      · exact ⟨_, _, rfl, .inl rfl⟩
      · exact ⟨_, _, rfl, .inl rfl⟩

/-- The path of an endpoint of a session has the argument pushed in the place of the
identifier. -/
theorem fillPath_of_session {after : List String}
    (session : endpoint.segments = sessionPath after) :
    fillPath ['/'] arguments (pathSegments endpoint.action) =
      match arguments.get? sessionCapture with
      | none => .error (.missingPathParameter sessionCapture)
      | some value =>
        .ok (spell (pushed sessionNames (argumentText value).toList ++ after.map String.toList),
          arguments.erase sessionCapture) := by
  have segmentNames : pathSegments endpoint.action =
      sessionNames ++ "\x7bsession_id\x7d".toList :: after.map String.toList := by
    rw [pathSegments_action, session, sessionPath, List.map_append, List.map_cons, List.map_map,
      List.map_map]
    rfl
  have inFront : ∀ name ∈ sessionNames, FixedName name := by decide
  have behind : ∀ name ∈ after.map String.toList, FixedName name := by
    intro name member
    obtain ⟨text, inAfter, rfl⟩ := List.mem_map.1 member
    have inPath : .literal text ∈ endpoint.segments := by
      rw [session]
      exact List.mem_append_right _ (List.mem_cons_of_mem _ (List.mem_map.2 ⟨text, inAfter, rfl⟩))
    exact Endpoint.fixedName inPath
  have filled : fillPath ['/'] arguments (pathSegments endpoint.action) =
      fillPath (spell sessionNames) arguments
        ("\x7bsession_id\x7d".toList :: after.map String.toList) := by
    rw [segmentNames]
    exact fillPath_root (by decide) inFront _
  have isPlaceholder : placeholder? "\x7bsession_id\x7d".toList = some sessionCapture := by decide
  rw [filled, fillPath, isPlaceholder]
  simp only
  cases arguments.get? sessionCapture with
  | none => rfl
  | some value =>
    have added : pushSegment (spell sessionNames) (argumentText value).toList =
        spell (pushed sessionNames (argumentText value).toList) := by
      have parted : sessionNames = ["api".toList, "v1".toList] ++ ["sessions".toList] := rfl
      rw [parted]
      exact pushSegment_spell (by decide) (by decide) (by decide) _
    have long : 1 < (spell (pushed sessionNames (argumentText value).toList)).length := by
      obtain ⟨third, rest, same, _⟩ := pushed_sessionNames (argumentText value).toList
      rw [same]
      simp
    have finished : fillPath (spell (pushed sessionNames (argumentText value).toList))
        (arguments.erase sessionCapture) (after.map String.toList ++ []) =
        fillPath (spell (pushed sessionNames (argumentText value).toList ++
          after.map String.toList)) (arguments.erase sessionCapture) [] :=
      fillPath_fixed long behind []
    rw [List.append_nil] at finished
    simp only
    rw [added, finished, fillPath]

/-! ## The parts of a path -/

/-- A request goes to the path that its action fills, with the method of the action. -/
theorem exists_fillPath_of_buildRequest {action : Action}
    (built : buildRequest action arguments = .ok request) :
    ∃ path left, fillPath ['/'] arguments (pathSegments action) = .ok (path, left) ∧
      request.path = String.ofList path ∧ request.method = action.method := by
  obtain ⟨⟨path, left⟩, filled, built⟩ := bind_eq_ok_iff.1 built
  obtain ⟨⟨pairs, rest⟩, _, built⟩ := bind_eq_ok_iff.1 built
  simp only at built
  generalize (if pairs.isEmpty then none else some (formEncode pairs)) = query at built
  split at built
  · cases built
  · cases built
    exact ⟨path, left, filled, rfl, rfl⟩

@[simp] theorem map_ofList_map_toList (texts : List String) :
    (texts.map String.toList).map String.ofList = texts := by
  simp

/-- The parts of the path of a request: those of its endpoint, or of a session with the
argument pushed in the place of its identifier. -/
theorem parts_of_buildRequest (built : buildRequest endpoint.action arguments = .ok request) :
    (∃ texts, endpoint.segments = texts.map .literal ∧ pathParts? request.path = some texts) ∨
    ∃ after value, endpoint.segments = sessionPath after ∧
      arguments.get? sessionCapture = some value ∧
      pathParts? request.path =
        some ((pushed sessionNames (argumentText value).toList).map String.ofList ++ after) := by
  obtain ⟨path, left, filled, samePath, _⟩ := exists_fillPath_of_buildRequest built
  have absent : ∀ {texts : List String}, (∀ text ∈ texts, .literal text ∈ endpoint.segments) →
      ∀ name ∈ texts.map String.toList, '/' ∉ name := by
    intro texts fixed name member
    obtain ⟨text, inTexts, rfl⟩ := List.mem_map.1 member
    exact (Endpoint.segment_is_name (fixed text inTexts)).1
  rcases endpoint.segments_cases with ⟨first, others, fixed⟩ | ⟨after, session⟩
  · refine .inl ⟨first :: others, fixed, ?_⟩
    rw [fillPath_of_fixed fixed] at filled
    cases filled
    rw [samePath, pathParts?_spell (by simp), map_ofList_map_toList]
    refine absent fun text member => ?_
    rw [fixed]
    exact List.mem_map.2 ⟨text, member, rfl⟩
  · rw [fillPath_of_session session] at filled
    split at filled
    · cases filled
    · rename_i value found
      cases filled
      refine .inr ⟨after, value, session, found, ?_⟩
      obtain ⟨third, rest, same, _⟩ := pushed_sessionNames (argumentText value).toList
      rw [samePath, pathParts?_spell (by simp [same]), List.map_append, map_ofList_map_toList]
      intro name member
      rcases List.mem_append.1 member with inFront | behind
      · exact slash_not_mem_of_mem_pushed (by decide) _ name inFront
      · refine absent (fun text inAfter => ?_) name behind
        rw [session]
        exact List.mem_append_right _ (List.mem_cons_of_mem _ (List.mem_map.2 ⟨text, inAfter, rfl⟩))

end Bridge

end ContextDb
