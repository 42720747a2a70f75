import ContextDb.Proofs.Widening
import Mathlib.Algebra.GroupWithZero.Nat

/-!
# Counting occurrences

Occurrences are counted from the left and do not overlap: the search goes on behind the end
of the one found last. The score of a text adds up these numbers for the words of a query,
each as often as it stands there.
-/

namespace ContextDb.Text

variable {wanted text before after : List Char} {count : Nat}

/-- The number of occurrences that are found from the left. The first one is the one that ends
first, and those that count after it are found in what follows it. -/
inductive Counted (wanted : List Char) : List Char → Nat → Prop where
  | none {text : List Char} (absent : ¬ wanted <:+: text) : Counted wanted text 0
  | next {before after : List Char} {count : Nat} (first : ¬ wanted <:+: before ++ wanted.dropLast)
      (rest : Counted wanted after count) : Counted wanted (before ++ wanted ++ after) (count + 1)

theorem countFrom_eq (found skip : Nat) (text : List Char) :
    countFrom wanted found skip text = found + countFrom wanted 0 skip text := by
  induction text generalizing found skip with
  | nil => rfl
  | cons c rest inductionHypothesis =>
    cases skip with
    | succ remaining => exact inductionHypothesis found remaining
    | zero =>
      rw [countFrom, countFrom]
      split
      · rw [inductionHypothesis (found + 1), inductionHypothesis (0 + 1)]
        omega
      · exact inductionHypothesis found 0

/-- What belongs to an occurrence is passed over. -/
theorem countFrom_append (found : Nat) (passed text : List Char) :
    countFrom wanted found passed.length (passed ++ text) = countFrom wanted found 0 text := by
  induction passed with
  | nil => rfl
  | cons c rest inductionHypothesis => exact inductionHypothesis

theorem occurrences_append (nonempty : wanted ≠ []) (after : List Char) :
    occurrences wanted (wanted ++ after) = occurrences wanted after + 1 := by
  obtain ⟨c, others, rfl⟩ := List.exists_cons_of_ne_nil nonempty
  have here : (c :: others).isPrefixOf (c :: (others ++ after)) = true :=
    List.isPrefixOf_iff_prefix.2 (List.prefix_append (c :: others) after)
  rw [occurrences, List.cons_append, countFrom, if_pos here, List.length_cons,
    Nat.add_sub_cancel, countFrom_append, countFrom_eq, occurrences]
  omega

theorem isPrefix_append_dropLast (before wanted after : List Char) :
    before ++ wanted.dropLast <+: before ++ wanted ++ after := by
  rw [List.append_assoc, List.prefix_append_right_inj]
  have begins : wanted.dropLast <+: wanted := List.dropLast_prefix wanted
  exact begins.trans (List.prefix_append _ _)

/-- What stands before the first occurrence counts for nothing. -/
theorem occurrences_of_first (nonempty : wanted ≠ [])
    (first : ¬ wanted <:+: before ++ wanted.dropLast) (after : List Char) :
    occurrences wanted (before ++ wanted ++ after) = occurrences wanted after + 1 := by
  induction before with
  | nil => exact occurrences_append nonempty after
  | cons c rest inductionHypothesis =>
    rw [List.cons_append, List.infix_cons_iff, not_or] at first
    have notHere : ¬ wanted.isPrefixOf (c :: (rest ++ wanted ++ after)) = true := by
      intro isHere
      have long : wanted.length ≤ (c :: (rest ++ wanted.dropLast)).length := by
        simp only [List.length_cons, List.length_append, List.length_dropLast]
        omega
      exact first.1 (List.prefix_of_prefix_length_le (List.isPrefixOf_iff_prefix.1 isHere)
        (isPrefix_append_dropLast (c :: rest) wanted after) long)
    rw [List.cons_append, List.cons_append, occurrences, countFrom, if_neg notHere]
    exact inductionHypothesis first.2

/-- A text that occurs in another has a first occurrence there. -/
theorem exists_first_of_isInfix (nonempty : wanted ≠ []) (occurs : wanted <:+: text) :
    ∃ before after, text = before ++ wanted ++ after ∧ ¬ wanted <:+: before ++ wanted.dropLast := by
  induction text with
  | nil => exact absurd (List.infix_nil.1 occurs) nonempty
  | cons c rest inductionHypothesis =>
    by_cases here : wanted <+: c :: rest
    · obtain ⟨after, shape⟩ := here
      refine ⟨[], after, shape.symm, fun inside => ?_⟩
      have long := inside.length_le
      have positive := List.length_pos_iff.2 nonempty
      simp only [List.nil_append, List.length_dropLast] at long
      omega
    · obtain ⟨before, after, rfl, first⟩ :=
        inductionHypothesis ((List.infix_cons_iff.1 occurs).resolve_left here)
      refine ⟨c :: before, after, rfl, fun inside => ?_⟩
      rcases List.infix_cons_iff.1 inside with atStart | later
      · exact here (atStart.trans (isPrefix_append_dropLast (c :: before) wanted after))
      · exact first later

/-- The count is the number of occurrences that are found from the left. -/
theorem counted_iff (nonempty : wanted ≠ []) :
    Counted wanted text count ↔ occurrences wanted text = count := by
  constructor
  · intro counted
    induction counted with
    | none absent =>
      by_contra found
      exact absent ((occurrences_ne_zero_iff nonempty).1 found)
    | next first _ inductionHypothesis =>
      rw [occurrences_of_first nonempty first, inductionHypothesis]
  · rintro rfl
    generalize size : text.length = bound
    induction bound using Nat.strongRecOn generalizing text with
    | ind bound inductionHypothesis =>
      by_cases occurs : wanted <:+: text
      · obtain ⟨before, after, rfl, first⟩ := exists_first_of_isInfix nonempty occurs
        have shorter : after.length < bound := by
          have positive := List.length_pos_iff.2 nonempty
          rw [← size, List.length_append, List.length_append]
          omega
        rw [occurrences_of_first nonempty first]
        exact .next first (inductionHypothesis _ shorter rfl)
      · have none : occurrences wanted text = 0 := by
          by_contra found
          exact occurs ((occurrences_ne_zero_iff nonempty).1 found)
        exact none ▸ .none occurs

end ContextDb.Text

namespace ContextDb.Store

open Text

/-- The score of a content adds up how often the words of a query occur in it, all in lower
case and each word as often as it stands in the query. -/
def Scored (query content : String) (score : Nat) : Prop :=
  ∃ counts, List.Forall₂ (fun word count => Counted (lower word) (lower content.toList) count)
    (words query.toList) counts ∧ counts.sum = score

theorem scoreOf_cons (term : List Char) (others : List (List Char)) (text : List Char) :
    scoreOf (term :: others) text = occurrences term text + scoreOf others text := rfl

theorem scored_iff {query content : String} {score : Nat} :
    Scored query content score ↔
      scoreOf (queryTerms query) (lower content.toList) = score := by
  have areWords : ∀ word ∈ words query.toList, lower word ≠ [] :=
    fun word member => lower_ne_nil (isWord_of_mem_words member).1
  rw [Scored, queryTerms]
  generalize words query.toList = asked at areWords
  induction asked generalizing score with
  | nil => simp [scoreOf]
  | cons word others inductionHypothesis =>
    have nonempty := areWords word List.mem_cons_self
    have othersAre : ∀ word ∈ others, lower word ≠ [] :=
      fun other member => areWords other (List.mem_cons_of_mem _ member)
    rw [List.map_cons, scoreOf_cons]
    constructor
    · rintro ⟨counts, counted, rfl⟩
      obtain ⟨count, rest, here, there, rfl⟩ := List.forall₂_cons_left_iff.1 counted
      rw [(counted_iff nonempty).1 here, (inductionHypothesis othersAre).1 ⟨rest, there, rfl⟩,
        List.sum_cons]
    · rintro rfl
      obtain ⟨rest, there, total⟩ := (inductionHypothesis othersAre).2 rfl
      refine ⟨occurrences (lower word) (lower content.toList) :: rest,
        .cons ((counted_iff nonempty).2 rfl) there, ?_⟩
      rw [List.sum_cons, total]

end ContextDb.Store
