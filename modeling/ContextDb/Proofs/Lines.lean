import ContextDb.Proofs.Widening

/-!
# Lines and their numbers

A line is told by what stands around it in the text, and its number by the line feeds
before it. What holds no line break is found in a text exactly if it is found on a line.
-/

namespace ContextDb.Text

variable {text line raw wanted first rest before after : List Char} {number : Nat}

/-! ## Texts line by line -/

/-- A property of all texts follows from those of texts without a line feed and from what
a line in front of a text does to it. -/
theorem induction_on_lines {motive : List Char → Prop}
    (alone : ∀ text, '\n' ∉ text → motive text)
    (ended : ∀ raw rest, '\n' ∉ raw → motive rest → motive (raw ++ '\n' :: rest)) :
    ∀ text, motive text := by
  intro text
  generalize size : text.length = count
  induction count using Nat.strongRecOn generalizing text with
  | ind count inductionHypothesis =>
    by_cases present : '\n' ∈ text
    · obtain ⟨raw, rest, rfl, absent⟩ := List.eq_append_cons_of_mem present
      have shorter : rest.length < count := by
        rw [← size, List.length_append, List.length_cons]
        omega
      exact ended raw rest absent (inductionHypothesis _ shorter rest rfl)
    · exact alone text present

@[simp] theorem lines_nil : lines [] = [] := rfl

theorem lines_append_cons (absent : '\n' ∉ raw) (rest : List Char) :
    lines (raw ++ '\n' :: rest) = dropReturn raw :: lines rest := by
  have nonempty : pieces '\n' rest ≠ [] := pieces_ne_nil _ _
  simp [lines, pieces_append_cons absent, List.dropLast_cons_of_ne_nil nonempty,
    List.getLast?_cons_of_ne_nil nonempty]

/-! ## Numbered lines -/

/-- What is left of a line whose line feed is taken away: a carriage return right before it
goes with it. -/
inductive EndedAs : List Char → List Char → Prop where
  | withReturn (line : List Char) : EndedAs (line ++ ['\r']) line
  | bare {line : List Char} (noReturn : line.getLast? ≠ some '\r') : EndedAs line line

theorem dropReturn_eq_iff : dropReturn raw = line ↔ EndedAs raw line := by
  constructor
  · rintro rfl
    rw [dropReturn]
    split
    · rename_i isReturn
      have ended := EndedAs.withReturn raw.dropLast
      rwa [List.dropLast_append_getLast? '\r' isReturn] at ended
    · rename_i noReturn
      exact .bare noReturn
  · rintro (_ | noReturn)
    · simp [dropReturn]
    · rw [dropReturn, if_neg noReturn]

/-- What stands before a line: nothing, or a text that ends with a line feed. -/
def EndsLine (before : List Char) : Prop :=
  before = [] ∨ before.getLast? = some '\n'

/-- A text has a line under a number, counted from one. A line has no line feed in it and
stands at the beginning or behind a line feed. It either ends with a line feed or, unless
it is empty, with the text. -/
inductive HasLine (text : List Char) : Nat → List Char → Prop where
  | ended {before raw line after : List Char} (split : text = before ++ raw ++ '\n' :: after)
      (fresh : EndsLine before) (absent : '\n' ∉ raw) (endedAs : EndedAs raw line) :
      HasLine text (before.count '\n' + 1) line
  | last {before line : List Char} (split : text = before ++ line) (fresh : EndsLine before)
      (absent : '\n' ∉ line) (nonempty : line ≠ []) :
      HasLine text (before.count '\n' + 1) line

theorem endsLine_append_cons_iff : EndsLine (raw ++ '\n' :: rest) ↔ EndsLine rest := by
  by_cases empty : rest = []
  · simp [EndsLine, empty]
  · simp [EndsLine, empty, List.getLast?_cons_of_ne_nil]

/-- What stands before a line of a text without a line feed is nothing. -/
theorem EndsLine.eq_nil (fresh : EndsLine before) (absent : '\n' ∉ before) : before = [] :=
  fresh.resolve_right fun isFeed => absent (List.mem_of_getLast? isFeed)

/-- What stands before a line is nothing or has the first line of the text in front. -/
theorem EndsLine.cases (fresh : EndsLine before) (absent : '\n' ∉ raw)
    (split : raw ++ '\n' :: rest = before ++ after) :
    before = [] ∨ ∃ behind, before = raw ++ '\n' :: behind ∧ EndsLine behind ∧
      rest = behind ++ after := by
  refine fresh.imp_right fun isFeed => ?_
  obtain ⟨front, behind, rfl, frontAbsent⟩ :=
    List.eq_append_cons_of_mem (List.mem_of_getLast? isFeed)
  rw [List.append_assoc, List.cons_append] at split
  have sameCut := (cutAt?_append_cons absent rest).symm.trans
    (split ▸ cutAt?_append_cons frontAbsent (behind ++ after))
  cases sameCut
  exact ⟨behind, rfl, endsLine_append_cons_iff.1 (.inr isFeed), rfl⟩

theorem hasLine_of_not_mem (absent : '\n' ∉ text) :
    HasLine text number line ↔ text ≠ [] ∧ number = 1 ∧ line = text := by
  constructor
  · rintro (⟨split, _, _, _⟩ | ⟨split, fresh, _, nonempty⟩)
    · exact absurd (split ▸ by simp) absent
    · rename_i before
      obtain rfl := fresh.eq_nil fun present => absent (split ▸ List.mem_append_left _ present)
      rw [List.nil_append] at split
      exact ⟨split ▸ nonempty, rfl, split.symm⟩
  · rintro ⟨nonempty, rfl, rfl⟩
    change HasLine line (([] : List Char).count '\n' + 1) line
    exact .last rfl (.inl rfl) absent nonempty

theorem hasLine_append_cons (absent : '\n' ∉ raw) :
    HasLine (raw ++ '\n' :: rest) number line ↔
      number = 1 ∧ EndedAs raw line ∨
        ∃ earlier, number = earlier + 1 ∧ HasLine rest earlier line := by
  constructor
  · rintro (⟨split, fresh, lineAbsent, endedAs⟩ | ⟨split, fresh, lineAbsent, nonempty⟩)
    · rw [List.append_assoc] at split
      rcases fresh.cases absent split with rfl | ⟨behind, rfl, behindFresh, rfl⟩
      · have sameCut := (cutAt?_append_cons absent rest).symm.trans
          (split ▸ cutAt?_append_cons lineAbsent _)
        cases sameCut
        exact .inl ⟨rfl, endedAs⟩
      · refine .inr ⟨behind.count '\n' + 1, ?_,
          .ended (List.append_assoc _ _ _).symm behindFresh lineAbsent endedAs⟩
        simp [List.count_eq_zero.2 absent]
    · rcases fresh.cases absent split with rfl | ⟨behind, rfl, behindFresh, rfl⟩
      · obtain rfl : raw ++ '\n' :: rest = line := split
        exact absurd (by simp) lineAbsent
      · refine .inr ⟨behind.count '\n' + 1, ?_, .last rfl behindFresh lineAbsent nonempty⟩
        simp [List.count_eq_zero.2 absent]
  · rintro (⟨rfl, endedAs⟩ | ⟨earlier, rfl, later⟩)
    · change HasLine (raw ++ '\n' :: rest) (([] : List Char).count '\n' + 1) line
      exact .ended rfl (.inl rfl) absent endedAs
    · have counted : ∀ before : List Char, (raw ++ '\n' :: before).count '\n' =
          before.count '\n' + 1 := by
        simp [List.count_eq_zero.2 absent]
      cases later with
      | @ended before bare _ after split fresh lineAbsent endedAs =>
        subst split
        have split : raw ++ '\n' :: (before ++ bare ++ '\n' :: after) =
            (raw ++ '\n' :: before) ++ bare ++ '\n' :: after := by simp
        exact counted before ▸ .ended split (endsLine_append_cons_iff.2 fresh) lineAbsent endedAs
      | @last before _ split fresh lineAbsent nonempty =>
        subst split
        have split : raw ++ '\n' :: (before ++ line) = (raw ++ '\n' :: before) ++ line := by simp
        exact counted before ▸ .last split (endsLine_append_cons_iff.2 fresh) lineAbsent nonempty

/-- The lines of a text are in the order of their numbers, and every number up to that of the
last one is that of a line. -/
theorem hasLine_succ_iff {index : Nat} :
    HasLine text (index + 1) line ↔ (lines text)[index]? = some line := by
  induction text using induction_on_lines generalizing index with
  | alone text absent =>
    rw [hasLine_of_not_mem absent]
    by_cases empty : text = []
    · simp [empty]
    · rw [lines_of_not_mem empty absent]
      cases index <;> simp [empty, eq_comm]
  | ended raw rest absent inductionHypothesis =>
    rw [hasLine_append_cons absent, lines_append_cons absent]
    cases index with
    | zero =>
      have noLine : ¬ HasLine rest 0 line := by rintro ⟨⟩
      simp [dropReturn_eq_iff, noLine]
    | succ index => simp [inductionHypothesis]

theorem HasLine.positive (isLine : HasLine text number line) : 0 < number := by
  cases isLine <;> exact Nat.succ_pos _

theorem hasLine_iff_mem_zipIdx :
    HasLine text number line ↔ (line, number) ∈ (lines text).zipIdx 1 := by
  rw [List.mk_mem_zipIdx_iff_le_and_getElem?_sub]
  constructor
  · intro isLine
    obtain ⟨index, rfl⟩ := Nat.exists_eq_add_of_le' isLine.positive
    exact ⟨isLine.positive, hasLine_succ_iff.1 isLine⟩
  · rintro ⟨positive, found⟩
    obtain ⟨index, rfl⟩ := Nat.exists_eq_add_of_le' positive
    exact hasLine_succ_iff.2 found

theorem exists_hasLine_iff : (∃ number, HasLine text number line) ↔ line ∈ lines text := by
  rw [List.mem_iff_getElem?]
  constructor
  · rintro ⟨number, isLine⟩
    obtain ⟨index, rfl⟩ := Nat.exists_eq_add_of_le' isLine.positive
    exact ⟨index, hasLine_succ_iff.1 isLine⟩
  · rintro ⟨index, found⟩
    exact ⟨index + 1, hasLine_succ_iff.2 found⟩

/-! ## Occurrences on one line -/

theorem isPrefix_append_cons_iff {separator : Char} (absent : separator ∉ wanted)
    (first rest : List Char) : wanted <+: first ++ separator :: rest ↔ wanted <+: first := by
  refine ⟨fun isPrefix => ?_, fun isPrefix => isPrefix.trans (List.prefix_append _ _)⟩
  rcases List.prefix_or_prefix_of_prefix isPrefix (List.prefix_append first _) with short | long
  · exact short
  · obtain ⟨others, rfl⟩ := long
    rcases List.prefix_cons_iff.1 ((List.prefix_append_right_inj first).1 isPrefix) with
      rfl | ⟨_, rfl, _⟩
    · simp
    · exact absurd (by simp) absent

/-- A text without a separator is found on one side of it. -/
theorem isInfix_append_cons_iff {separator : Char} (absent : separator ∉ wanted) :
    wanted <:+: first ++ separator :: rest ↔ wanted <:+: first ∨ wanted <:+: rest := by
  induction first with
  | nil =>
    have atStart := isPrefix_append_cons_iff absent [] rest
    rw [List.nil_append] at atStart ⊢
    rw [List.infix_cons_iff, atStart, List.prefix_nil, List.infix_nil]
  | cons c others inductionHypothesis =>
    have atStart := isPrefix_append_cons_iff absent (c :: others) rest
    rw [List.cons_append] at atStart ⊢
    rw [List.infix_cons_iff, atStart, inductionHypothesis, List.infix_cons_iff, or_assoc]

theorem isInfix_dropReturn_iff (absent : '\r' ∉ wanted) :
    wanted <:+: dropReturn raw ↔ wanted <:+: raw := by
  generalize isLine : dropReturn raw = line
  cases dropReturn_eq_iff.1 isLine with
  | bare => rfl
  | withReturn =>
    rw [isInfix_append_cons_iff absent, List.infix_nil]
    refine ⟨.inl, fun found => found.elim id ?_⟩
    rintro rfl
    exact List.nil_infix

/-- What is not empty and holds no line break is found in a text exactly if it is found on one
of its lines. -/
theorem isInfix_iff_exists_line (nonempty : wanted ≠ []) (noFeed : '\n' ∉ wanted)
    (noReturn : '\r' ∉ wanted) : wanted <:+: text ↔ ∃ line ∈ lines text, wanted <:+: line := by
  induction text using induction_on_lines with
  | alone text absent =>
    by_cases empty : text = []
    · simp [empty, nonempty]
    · simp [lines_of_not_mem empty absent]
  | ended raw rest absent inductionHypothesis =>
    rw [isInfix_append_cons_iff noFeed, lines_append_cons absent, List.exists_mem_cons_iff,
      isInfix_dropReturn_iff noReturn, inductionHypothesis]

end ContextDb.Text
