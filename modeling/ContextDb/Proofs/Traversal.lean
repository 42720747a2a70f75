import Mathlib.Data.List.Forall2

/-!
# Results that may be errors

When a sequence of steps that can fail gives a result, and when it gives an error.
-/

namespace ContextDb

universe u v w

variable {ε : Type u} {α : Type v} {β : Type v}

theorem bind_eq_ok_iff {first : Except ε α} {next : α → Except ε β} {result : β} :
    first >>= next = .ok result ↔ ∃ value, first = .ok value ∧ next value = .ok result := by
  cases first <;> simp [bind, Except.bind]

theorem bind_eq_error_iff {first : Except ε α} {next : α → Except ε β} {error : ε} :
    first >>= next = .error error ↔
      first = .error error ∨ ∃ value, first = .ok value ∧ next value = .error error := by
  cases first <;> simp [bind, Except.bind]

theorem map_eq_ok_iff {change : α → β} {first : Except ε α} {result : β} :
    first.map change = .ok result ↔ ∃ value, first = .ok value ∧ change value = result := by
  cases first <;> simp [Except.map]

/-- A traversal succeeds exactly when every step does, and gives what the steps give. -/
theorem mapM_eq_ok_iff {step : α → Except ε β} {inputs : List α} {results : List β} :
    inputs.mapM step = .ok results ↔
      List.Forall₂ (fun input result => step input = .ok result) inputs results := by
  induction inputs generalizing results with
  | nil => cases results <;> simp [pure, Except.pure]
  | cons input others inductionHypothesis =>
    rw [List.mapM_cons, bind_eq_ok_iff]
    constructor
    · rintro ⟨result, here, rest⟩
      obtain ⟨later, there, same⟩ := bind_eq_ok_iff.1 rest
      cases same
      exact .cons here (inductionHypothesis.1 there)
    · intro pairs
      cases pairs with
      | cons here there =>
        exact ⟨_, here, bind_eq_ok_iff.2 ⟨_, inductionHypothesis.2 there, rfl⟩⟩

/-- Every result of a traversal is that of a step. -/
theorem exists_of_mem_mapM {step : α → Except ε β} {inputs : List α} {results : List β} {result : β}
    (done : inputs.mapM step = .ok results) (member : result ∈ results) :
    ∃ input ∈ inputs, step input = .ok result := by
  induction mapM_eq_ok_iff.1 done with
  | nil => cases member
  | cons here there inductionHypothesis =>
    rcases List.mem_cons.1 member with rfl | later
    · exact ⟨_, List.mem_cons_self, here⟩
    · obtain ⟨input, inOthers, gives⟩ := inductionHypothesis (mapM_eq_ok_iff.2 there) later
      exact ⟨input, List.mem_cons_of_mem _ inOthers, gives⟩

/-- A traversal fails only where a step does. -/
theorem exists_of_mapM_eq_error {step : α → Except ε β} {inputs : List α} {error : ε}
    (failed : inputs.mapM step = .error error) : ∃ input ∈ inputs, step input = .error error := by
  induction inputs with
  | nil => cases failed
  | cons input others inductionHypothesis =>
    rw [List.mapM_cons, bind_eq_error_iff] at failed
    rcases failed with here | ⟨_, _, later⟩
    · exact ⟨input, List.mem_cons_self, here⟩
    · rcases bind_eq_error_iff.1 later with there | ⟨_, _, impossible⟩
      · obtain ⟨other, member, stepFailed⟩ := inductionHypothesis there
        exact ⟨other, List.mem_cons_of_mem _ member, stepFailed⟩
      · cases impossible

/-! ## Steps that may have no result -/

section Given

variable {inputs : List α}

theorem mapM_eq_some {step : α → Option β} {result : α → β}
    (given : ∀ input ∈ inputs, step input = some (result input)) :
    inputs.mapM step = some (inputs.map result) := by
  induction inputs with
  | nil => rfl
  | cons input others inductionHypothesis =>
    rw [List.mapM_cons, given input List.mem_cons_self,
      inductionHypothesis fun other member => given other (List.mem_cons_of_mem _ member)]
    rfl

theorem foldlM_eq_some {step : β → α → Option β} {result : β → α → β} (state : β)
    (given : ∀ input ∈ inputs, ∀ state, step state input = some (result state input)) :
    inputs.foldlM step state = some (inputs.foldl result state) := by
  induction inputs generalizing state with
  | nil => rfl
  | cons input others inductionHypothesis =>
    rw [List.foldlM_cons, given input List.mem_cons_self]
    exact inductionHypothesis _ fun other member => given other (List.mem_cons_of_mem _ member)

end Given

/-- A filter with a test that always has a result is that with the results. -/
theorem filterM_eq_some {α : Type} {inputs : List α} {test : α → Option Bool} {keep : α → Bool}
    (given : ∀ input ∈ inputs, test input = some (keep input)) :
    inputs.filterM test = some (inputs.filter keep) := by
  have kept : ∀ before, inputs.filterAuxM test before =
      some ((inputs.filter keep).reverse ++ before) := by
    induction inputs with
    | nil => exact fun _ => rfl
    | cons input others inductionHypothesis =>
      intro before
      rw [List.filterAuxM, given input List.mem_cons_self, Option.bind_eq_bind, Option.bind_some,
        inductionHypothesis fun other member => given other (List.mem_cons_of_mem _ member)]
      cases keeps : keep input <;> simp [keeps]
  rw [List.filterM, kept]
  simp

/-- Likewise for the results of a function that are there. -/
theorem filterMapM_eq_some {step : α → Option (Option β)} {result : α → Option β}
    {inputs : List α} (given : ∀ input ∈ inputs, step input = some (result input)) :
    inputs.filterMapM step = some (inputs.filterMap result) := by
  have found : ∀ before, List.filterMapM.loop step inputs before =
      some (before.reverse ++ inputs.filterMap result) := by
    induction inputs with
    | nil => simp [List.filterMapM.loop]
    | cons input others inductionHypothesis =>
      intro before
      have later := inductionHypothesis fun other member =>
        given other (List.mem_cons_of_mem _ member)
      rw [List.filterMapM.loop, given input List.mem_cons_self, Option.bind_eq_bind,
        Option.bind_some]
      cases gives : result input <;> simp [gives, later]
  rw [List.filterMapM, found]
  rfl

end ContextDb
