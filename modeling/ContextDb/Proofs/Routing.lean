import ContextDb.Proofs.Describing
import ContextDb.Proofs.Paths

/-!
# Where paths lead

A path leads to an endpoint if its parts match the segments of the endpoint one by
one. No part matches segments of two endpoints with the same method throughout, so
the order in which endpoints are tried does not matter.
-/

namespace ContextDb.Rest

open Text Url

variable {segments firsts seconds : List Segment} {parts texts captured : List String}

/-- The parts of a path are its names. -/
theorem pathParts?_spell {names : List (List Char)} (nonempty : names ≠ [])
    (absent : ∀ name ∈ names, '/' ∉ name) :
    pathParts? (String.ofList (spell names)) = some (names.map String.ofList) := by
  cases names with
  | nil => exact absurd rfl nonempty
  | cons name names =>
    simp only [pathParts?, String.toList_ofList, spell_cons, pieces_append_spell absent]

/-! ## Matching -/

/-- Whether a segment can match a part. -/
def Segment.accepts : Segment → String → Bool
  | .literal text, part => text = part
  | .capture _, _ => true

/-- The first segment matches the first part, and the others match the other parts. -/
theorem exists_of_captures?_cons {segment : Segment}
    (matching : captures? (segment :: segments) parts = some captured) :
    ∃ part others capturedThere, parts = part :: others ∧ segment.accepts part = true ∧
      captures? segments others = some capturedThere := by
  cases parts with
  | nil => cases segment <;> cases matching
  | cons part others =>
    cases segment with
    | literal text =>
      simp only [captures?] at matching
      split at matching
      · rename_i same
        exact ⟨part, others, captured, rfl, by simpa [Segment.accepts] using same, matching⟩
      · cases matching
    | capture name =>
      simp only [captures?] at matching
      split at matching
      · cases matching
      · obtain ⟨capturedThere, matchingOthers, _⟩ := Option.map_eq_some_iff.1 matching
        exact ⟨part, others, capturedThere, rfl, rfl, matchingOthers⟩

theorem eq_nil_of_captures?_nil (matching : captures? [] parts = some captured) : parts = [] := by
  cases parts with
  | nil => rfl
  | cons part others => cases matching

/-- Each segment takes one part. -/
theorem length_of_captures? (matching : captures? segments parts = some captured) :
    parts.length = segments.length := by
  induction segments generalizing parts captured with
  | nil =>
    cases eq_nil_of_captures?_nil matching
    rfl
  | cons segment segments inductionHypothesis =>
    obtain ⟨part, others, _, rfl, _, matchingOthers⟩ := exists_of_captures?_cons matching
    rw [List.length_cons, List.length_cons, inductionHypothesis matchingOthers]

/-- Fixed segments match their own texts and capture nothing. -/
@[simp] theorem captures?_literals_append (texts : List String) (segments : List Segment)
    (parts : List String) :
    captures? (texts.map .literal ++ segments) (texts ++ parts) = captures? segments parts := by
  induction texts with
  | nil => rfl
  | cons text texts inductionHypothesis => simpa [captures?] using inductionHypothesis

@[simp] theorem captures?_literals (texts : List String) :
    captures? (texts.map .literal) texts = some [] := by
  have whole := captures?_literals_append texts [] []
  rwa [List.append_nil, List.append_nil] at whole

/-- Fixed segments match nothing but their own texts. -/
theorem eq_append_of_captures?_literals
    (matching : captures? (texts.map .literal ++ segments) parts = some captured) :
    ∃ rest, parts = texts ++ rest ∧ captures? segments rest = some captured := by
  induction texts generalizing parts with
  | nil => exact ⟨parts, rfl, matching⟩
  | cons text texts inductionHypothesis =>
    cases parts with
    | nil => cases matching
    | cons part parts =>
      simp only [List.map_cons, List.cons_append, captures?] at matching
      split at matching
      · rename_i same
        obtain ⟨rest, rfl, matchingRest⟩ := inductionHypothesis matching
        exact ⟨rest, by rw [same, List.cons_append], matchingRest⟩
      · cases matching

/-- Whether some part can match both of two segments. -/
def Segment.meets : Segment → Segment → Bool
  | .literal first, .literal second => first = second
  | _, _ => true

theorem Segment.meets_of_accepts {first second : Segment} {part : String}
    (acceptsFirst : first.accepts part = true) (acceptsSecond : second.accepts part = true) :
    first.meets second = true := by
  cases first with
  | capture name => rfl
  | literal text =>
    cases second with
    | capture name => rfl
    | literal other =>
      simp only [accepts, decide_eq_true_eq] at acceptsFirst acceptsSecond
      simp [meets, acceptsFirst, acceptsSecond]

/-- Whether some parts can match the segments of both of two paths. -/
def meet : List Segment → List Segment → Bool
  | [], [] => true
  | first :: firsts, second :: seconds => first.meets second && meet firsts seconds
  | _, _ => false

/-- Segments of two paths that the same parts match meet. -/
theorem meet_of_captures? {capturedSecond : List String}
    (matchesFirst : captures? firsts parts = some captured)
    (matchesSecond : captures? seconds parts = some capturedSecond) :
    meet firsts seconds = true := by
  induction firsts generalizing seconds parts captured capturedSecond with
  | nil =>
    cases eq_nil_of_captures?_nil matchesFirst
    cases seconds with
    | nil => rfl
    | cons second seconds => cases length_of_captures? matchesSecond
  | cons first firsts inductionHypothesis =>
    obtain ⟨part, others, _, rfl, acceptsFirst, othersFirst⟩ :=
      exists_of_captures?_cons matchesFirst
    cases seconds with
    | nil => cases length_of_captures? matchesSecond
    | cons second seconds =>
      obtain ⟨_, _, _, same, acceptsSecond, othersSecond⟩ :=
        exists_of_captures?_cons matchesSecond
      cases same
      rw [meet, Segment.meets_of_accepts acceptsFirst acceptsSecond,
        inductionHypothesis othersFirst othersSecond, Bool.and_true]

/-- No two endpoints with the same method meet. -/
theorem Endpoint.eq_of_meet {first second : Endpoint} (sameMethod : first.method = second.method)
    (meeting : meet first.segments second.segments = true) : first = second := by
  have distinct : ∀ first second : Endpoint, first.method = second.method →
      meet first.segments second.segments = true → first = second := by decide +kernel
  exact distinct first second sameMethod meeting

/-! ## The endpoint of a request -/

theorem Method.name_injective : Function.Injective Method.name := by
  intro first second
  cases first <;> cases second <;> decide

/-- A path leads to the endpoints whose segments match its parts. -/
theorem mem_endpointsAt_iff {path : String} {endpoint : Endpoint} :
    (endpoint, captured) ∈ endpointsAt path ↔
      ∃ parts, pathParts? path = some parts ∧
        captures? endpoint.segments parts = some captured := by
  rw [endpointsAt]
  cases pathParts? path with
  | none => simp
  | some parts =>
    simp only [List.mem_filterMap, Option.map_eq_some_iff, Option.some.injEq, exists_eq_left']
    constructor
    · rintro ⟨_, _, captured, matching, same⟩
      cases same
      exact matching
    · intro matching
      exact ⟨endpoint, endpoint.mem_all, captured, matching, rfl⟩

/-- A request is served by the one endpoint with its method whose segments match the
parts of its path. -/
theorem endpointFor?_eq_some_iff {method path : String} {endpoint : Endpoint} :
    endpointFor? method path = some (endpoint, captured) ↔
      endpoint.method.name = servedAs method ∧
        ∃ parts, pathParts? path = some parts ∧
          captures? endpoint.segments parts = some captured := by
  rw [← mem_endpointsAt_iff]
  constructor
  · intro found
    exact ⟨by simpa using List.find?_some found, List.mem_of_find?_eq_some found⟩
  · rintro ⟨hasMethod, leads⟩
    cases found : endpointFor? method path with
    | none =>
      have missed := List.find?_eq_none.1 found (endpoint, captured) leads
      exact absurd (by simpa using hasMethod) missed
    | some pair =>
      obtain ⟨other, otherCaptured⟩ := pair
      have otherMethod : other.method.name = servedAs method := by simpa using List.find?_some found
      obtain ⟨parts, areParts, matching⟩ := mem_endpointsAt_iff.1 leads
      obtain ⟨otherParts, areOtherParts, otherMatching⟩ :=
        mem_endpointsAt_iff.1 (List.mem_of_find?_eq_some found)
      cases areParts.symm.trans areOtherParts
      have same : other = endpoint :=
        Endpoint.eq_of_meet (Method.name_injective (otherMethod.trans hasMethod.symm))
          (meet_of_captures? otherMatching matching)
      subst same
      cases otherMatching.symm.trans matching
      rfl

end ContextDb.Rest
