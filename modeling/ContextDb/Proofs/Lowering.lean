import ContextDb.Text.LowerCase
import Mathlib.Data.List.Infix
import Mathlib.Data.List.TakeWhile

/-!
# Lower case inside a text

Only a capital sigma is lowered after what stands around it. A text is steady if
the sigmas in it are lowered alike wherever the text stands; exactly the steady
texts can be found, once both are lowered, in every text that contains them.
-/

namespace ContextDb.Text

variable {text before after : List Char}

/-! ## Lowering between other texts -/

/-- The lower-case form of a text between the text before it, nearest character first, and
the text after it. -/
def lowerWithin (before : List Char) : List Char → List Char → List Char
  | [], _ => []
  | c :: rest, after => lowerChar before c (rest ++ after) ++ lowerWithin (c :: before) rest after

theorem lowerFrom_eq (before collected text : List Char) :
    lowerFrom before collected text = collected.reverse ++ lowerWithin before text [] := by
  induction text generalizing before collected with
  | nil => simp [lowerFrom, lowerWithin]
  | cons c rest inductionHypothesis =>
    simp [lowerFrom, lowerWithin, inductionHypothesis]

theorem lower_eq_lowerWithin (text : List Char) : lower text = lowerWithin [] text [] := by
  simp [lower, lowerFrom_eq]

theorem lowerWithin_append (before first second after : List Char) :
    lowerWithin before (first ++ second) after =
      lowerWithin before first (second ++ after) ++
        lowerWithin (first.reverse ++ before) second after := by
  induction first generalizing before with
  | nil => rfl
  | cons c rest inductionHypothesis =>
    simp [lowerWithin, inductionHypothesis]

theorem length_lowerChar (before after others : List Char) (c : Char) :
    (lowerChar before c after).length = (lowerChar [] c others).length := by
  simp only [lowerChar]
  split_ifs <;> rfl

/-- The length of a lowered text depends on nothing around it. -/
theorem length_lowerWithin (before text after : List Char) :
    (lowerWithin before text after).length = (lower text).length := by
  have alone : ∀ others, (lowerWithin before text after).length =
      (lowerWithin others text []).length := by
    induction text generalizing before with
    | nil => exact fun _ => rfl
    | cons c rest inductionHypothesis =>
      intro others
      rw [lowerWithin, lowerWithin, List.length_append, List.length_append,
        length_lowerChar before _ [], length_lowerChar others _ [],
        inductionHypothesis _ (c :: others)]
  rw [lower_eq_lowerWithin, alone []]

theorem lowerChar_of_ne {c : Char} (notSigma : c ≠ '\u03A3') (before after : List Char) :
    lowerChar before c after = lowerChar [] c [] := by
  simp [lowerChar, notSigma]

/-- The lower-case form of a sigma tells whether it is final. -/
theorem lowerChar_sigma_inj {others following : List Char} :
    lowerChar before '\u03A3' after = lowerChar others '\u03A3' following ↔
      (casedNearby before && !casedNearby after) =
        (casedNearby others && !casedNearby following) := by
  simp only [lowerChar, if_true]
  generalize (casedNearby before && !casedNearby after) = ends
  generalize (casedNearby others && !casedNearby following) = finishes
  revert ends finishes
  decide

/-- Different forms of one character make different forms of the text. -/
theorem lowerWithin_ne {first second others following : List Char} {c : Char}
    (different : lowerChar (first.reverse ++ before) c (second ++ after) ≠
      lowerChar (first.reverse ++ others) c (second ++ following)) :
    lowerWithin before (first ++ c :: second) after ≠
      lowerWithin others (first ++ c :: second) following := by
  rw [lowerWithin_append, lowerWithin_append]
  intro same
  have behind := (List.append_inj same (by simp only [length_lowerWithin])).2
  refine different (List.append_inj behind ?_).1
  rw [length_lowerChar _ _ [], length_lowerChar (_ ++ others) _ []]

/-! ## What is skipped -/

theorem casedNearby_of_all (ignorable : text.all isCaseIgnorable = true) :
    casedNearby text = false := by
  have nothing : text.dropWhile isCaseIgnorable = [] :=
    List.dropWhile_eq_nil_iff.2 (List.all_eq_true.1 ignorable)
  simp [casedNearby, nothing]

theorem casedNearby_append_of_all (ignorable : text.all isCaseIgnorable = true)
    (after : List Char) : casedNearby (text ++ after) = casedNearby after := by
  rw [casedNearby, casedNearby, List.dropWhile_append_of_pos (List.all_eq_true.1 ignorable)]

theorem casedNearby_append_of_not_all (counts : text.all isCaseIgnorable = false)
    (after : List Char) : casedNearby (text ++ after) = casedNearby text := by
  have something : text.dropWhile isCaseIgnorable ≠ [] := by
    rw [Ne, List.dropWhile_eq_nil_iff, ← List.all_eq_true, counts]
    exact Bool.false_ne_true
  obtain ⟨c, rest, shape⟩ := List.exists_cons_of_ne_nil something
  simp [casedNearby, List.dropWhile_append, shape]

/-! ## Steady texts -/

/-- A capital sigma with only case-ignorable characters before it in the text has a cased
letter next after it, and one with a cased letter next before it has more than
case-ignorable characters after it. What is next is told without the case-ignorable ones. -/
def Steady (text : List Char) : Prop :=
  ∀ before after, text = before ++ '\u03A3' :: after →
    (before.all isCaseIgnorable = true → casedNearby after = true) ∧
      (casedNearby before.reverse = true → after.all isCaseIgnorable = false)

theorem steady_of_not_mem (absent : '\u03A3' ∉ text) : Steady text := by
  rintro before after rfl
  exact absurd (List.mem_append_right _ List.mem_cons_self) absent

/-- A sigma of a steady text has the same form wherever the text stands. -/
theorem Steady.lowerChar_eq (steady : Steady (before ++ '\u03A3' :: after))
    (others following : List Char) :
    lowerChar (before.reverse ++ others) '\u03A3' (after ++ following) =
      lowerChar before.reverse '\u03A3' after := by
  obtain ⟨atStart, atEnd⟩ := steady before after rfl
  rw [lowerChar_sigma_inj]
  cases skipped : before.all isCaseIgnorable with
  | true =>
    -- the letter after it alone keeps the sigma from being final
    have letterAfter := atStart skipped
    have counts : after.all isCaseIgnorable = false := by
      by_contra all
      rw [casedNearby_of_all (by simpa using all)] at letterAfter
      cases letterAfter
    rw [casedNearby_append_of_not_all counts, letterAfter]
    simp
  | false =>
    rw [casedNearby_append_of_not_all (by rw [List.all_reverse, skipped])]
    cases letterBefore : casedNearby before.reverse with
    | false => simp
    | true => rw [casedNearby_append_of_not_all (atEnd letterBefore)]

/-- A steady text is lowered alike wherever it stands. -/
theorem Steady.lowerWithin_eq (steady : Steady text) (others following : List Char) :
    lowerWithin others text following = lower text := by
  have suffix : ∀ rest before, text = before ++ rest →
      lowerWithin (before.reverse ++ others) rest following =
        lowerWithin before.reverse rest [] := by
    intro rest
    induction rest with
    | nil => exact fun _ _ => rfl
    | cons c rest inductionHypothesis =>
      intro before split
      have tail : lowerWithin (c :: (before.reverse ++ others)) rest following =
          lowerWithin (c :: before.reverse) rest [] := by
        simpa using inductionHypothesis (before ++ [c]) (by simp [split])
      have head : lowerChar (before.reverse ++ others) c (rest ++ following) =
          lowerChar before.reverse c rest := by
        by_cases isSigma : c = '\u03A3'
        · subst isSigma
          exact Steady.lowerChar_eq (split ▸ steady) others following
        · rw [lowerChar_of_ne isSigma, lowerChar_of_ne isSigma before.reverse]
      rw [lowerWithin, lowerWithin, head, tail, List.append_nil]
  rw [lower_eq_lowerWithin]
  exact suffix text [] rfl

/-- Letters that have no case context of their own. -/
def plainLetters : List Char := ['a', 'b']

theorem plainLetters_cases {letter : Char} (isPlain : letter ∈ plainLetters) :
    letter = 'a' ∨ letter = 'b' := by
  simpa [plainLetters] using isPlain

theorem casedNearby_plainLetter {letter : Char} (isPlain : letter ∈ plainLetters) :
    casedNearby [letter] = true := by
  rcases plainLetters_cases isPlain with rfl | rfl <;> decide +kernel

theorem lowerChar_plainLetter {letter : Char} (isPlain : letter ∈ plainLetters)
    (before after : List Char) : lowerChar before letter after = [letter] := by
  rcases plainLetters_cases isPlain with rfl | rfl <;> rfl

/-- A text that is not steady is lowered differently after any letter or before any
letter. -/
theorem lowerWithin_ne_of_not_steady (unsteady : ¬ Steady text) :
    (∀ letter ∈ plainLetters, lowerWithin [letter] text [] ≠ lower text) ∨
      ∀ letter ∈ plainLetters, lowerWithin [] text [letter] ≠ lower text := by
  simp only [Steady, not_forall, not_and_or] at unsteady
  obtain ⟨before, after, rfl, ⟨skipped, noLetter⟩ | ⟨letterBefore, skipped⟩⟩ := unsteady
  · refine Or.inl fun letter isPlain => lower_eq_lowerWithin _ ▸ lowerWithin_ne ?_
    have skippedBack : before.reverse.all isCaseIgnorable = true := by rwa [List.all_reverse]
    rw [Ne, lowerChar_sigma_inj, casedNearby_append_of_all skippedBack,
      casedNearby_plainLetter isPlain, List.append_nil, List.append_nil,
      casedNearby_of_all skippedBack]
    simpa using noLetter
  · rw [Bool.not_eq_false] at skipped
    refine Or.inr fun letter isPlain => lower_eq_lowerWithin _ ▸ lowerWithin_ne ?_
    rw [Ne, lowerChar_sigma_inj, casedNearby_append_of_all skipped,
      casedNearby_plainLetter isPlain, List.append_nil, List.append_nil,
      casedNearby_of_all skipped, letterBefore]
    decide

/-! ## Finding a lowered text -/

/-- The lower-case form of a text is made of those of its parts. -/
theorem lower_append (first second : List Char) :
    lower (first ++ second) =
      lowerWithin [] first second ++ lowerWithin first.reverse second [] := by
  simp [lower_eq_lowerWithin, lowerWithin_append]

theorem lower_ne_nil (nonempty : text ≠ []) : lower text ≠ [] := by
  obtain ⟨c, rest, rfl⟩ := List.exists_cons_of_ne_nil nonempty
  have image : lowerChar [] c rest ≠ [] := by
    rw [lowerChar]
    split_ifs <;> simp
  simp [lower_eq_lowerWithin, lowerWithin, image]

theorem Steady.isInfix_lower (steady : Steady text) {whole : List Char}
    (occurs : text <:+: whole) : lower text <:+: lower whole := by
  obtain ⟨before, after, rfl⟩ := occurs
  rw [List.append_assoc, lower_append, lowerWithin_append, steady.lowerWithin_eq,
    ← List.append_assoc]
  exact ⟨_, _, rfl⟩

/-- A text does not occur in another one of its length behind a character that it does not
begin with. -/
theorem not_isInfix_cons {wanted other : List Char} {letter : Char}
    (different : other ≠ wanted) (long : other.length = wanted.length)
    (notFirst : wanted.head? ≠ some letter) : ¬ wanted <:+: letter :: other := by
  intro occurs
  rcases List.infix_cons_iff.1 occurs with atStart | inside
  · cases wanted with
    | nil => exact different (List.length_eq_zero_iff.1 long)
    | cons c rest => exact notFirst (congrArg some (List.cons_prefix_cons.1 atStart).1)
  · exact different (inside.eq_of_length long.symm).symm

theorem not_isInfix_concat {wanted other : List Char} {letter : Char}
    (different : other ≠ wanted) (long : other.length = wanted.length)
    (notLast : wanted.getLast? ≠ some letter) : ¬ wanted <:+: other ++ [letter] := by
  rw [← List.reverse_infix, List.reverse_append]
  refine not_isInfix_cons (fun same => different (List.reverse_injective same)) ?_ ?_
  · simpa using long
  · rwa [List.head?_reverse]

/-- One of two letters is not a given one, if there is any. -/
theorem exists_plainLetter_ne (given : Option Char) :
    ∃ letter ∈ plainLetters, given ≠ some letter := by
  by_cases isA : given = some 'a'
  · exact ⟨'b', by decide, by rw [isA]; decide⟩
  · exact ⟨'a', by decide, isA⟩

/-- A letter before or after a text that is not steady hides it. -/
theorem exists_hiding_of_not_steady (unsteady : ¬ Steady text) :
    ∃ whole, text <:+: whole ∧ (∀ c ∈ whole, c ∈ text ∨ c ∈ plainLetters) ∧
      ¬ lower text <:+: lower whole := by
  rcases lowerWithin_ne_of_not_steady unsteady with ahead | behind
  · obtain ⟨letter, isPlain, notFirst⟩ := exists_plainLetter_ne (lower text).head?
    have lowered : lower ([letter] ++ text) = letter :: lowerWithin [letter] text [] := by
      rw [lower_append]
      simp [lowerWithin, lowerChar_plainLetter isPlain]
    refine ⟨[letter] ++ text, ⟨[letter], [], by simp⟩, by simp +contextual [isPlain], ?_⟩
    rw [lowered]
    exact not_isInfix_cons (ahead letter isPlain) (length_lowerWithin _ _ _) notFirst
  · obtain ⟨letter, isPlain, notLast⟩ := exists_plainLetter_ne (lower text).getLast?
    have lowered : lower (text ++ [letter]) = lowerWithin [] text [letter] ++ [letter] := by
      simp [lower_append, lowerWithin, lowerChar_plainLetter isPlain]
    refine ⟨text ++ [letter], ⟨[], [letter], by simp⟩, by simp +contextual [isPlain, or_imp], ?_⟩
    rw [lowered]
    exact not_isInfix_concat (behind letter isPlain) (length_lowerWithin _ _ _) notLast

/-- The steady texts are those whose lower-case form is found in that of every text that
contains them. -/
theorem steady_iff :
    Steady text ↔ ∀ whole, text <:+: whole → lower text <:+: lower whole := by
  refine ⟨fun steady _ => steady.isInfix_lower, fun found => ?_⟩
  by_contra unsteady
  obtain ⟨whole, occurs, _, hidden⟩ := exists_hiding_of_not_steady unsteady
  exact hidden (found whole occurs)

end ContextDb.Text
