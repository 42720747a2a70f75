import ContextDb.Text.Bytes
import ContextDb.Text.Split

/-!
# Cutting and joining texts

`pieces` and `joinWith` undo each other as long as no piece holds the separator,
and the cuts at a prefix, at a byte offset and at a last separator return what
was joined there.
-/

namespace ContextDb.Text

/-- Cutting off a beginning gives exactly what follows it. -/
theorem dropPrefix?_eq_some_iff {beginning text rest : List Char} :
    dropPrefix? beginning text = some rest ↔ text = beginning ++ rest := by
  induction beginning generalizing text with
  | nil => simp [dropPrefix?]
  | cons first others inductionHypothesis =>
    cases text with
    | nil => simp [dropPrefix?]
    | cons c text =>
      by_cases same : first = c
      · subst same
        simp [dropPrefix?, inductionHypothesis]
      · have different : ¬ c = first := fun equal => same equal.symm
        simp [dropPrefix?, same, different]

/-- The stored size of a string is that of its characters. -/
theorem utf8ByteSize_cons (c : Char) (text : List Char) :
    (String.ofList (c :: text)).utf8ByteSize =
      c.utf8Size + (String.ofList text).utf8ByteSize := by
  rw [← List.singleton_append, String.ofList_append, String.utf8ByteSize_append]
  simp

/-- A cut at the stored size of a beginning falls right behind it. -/
theorem dropBytes?_append (beginning : String) (rest : List Char) :
    dropBytes? beginning.utf8ByteSize (beginning.toList ++ rest) = some rest := by
  suffices ∀ text : List Char,
      dropBytes? (String.ofList text).utf8ByteSize (text ++ rest) = some rest by
    simpa using this beginning.toList
  intro text
  induction text with
  | nil => simp [dropBytes?]
  | cons c text inductionHypothesis =>
    have positive := c.utf8Size_pos
    obtain ⟨count, countEq⟩ : ∃ count,
        (String.ofList (c :: text)).utf8ByteSize = count + 1 :=
      ⟨(String.ofList (c :: text)).utf8ByteSize - 1, by rw [utf8ByteSize_cons]; omega⟩
    have total := utf8ByteSize_cons c text
    have fits : c.utf8Size ≤ count + 1 := by omega
    have left : count + 1 - c.utf8Size = (String.ofList text).utf8ByteSize := by omega
    rw [countEq, List.cons_append, dropBytes?, if_pos fits, left, inductionHypothesis]

@[simp] theorem extendFirst_cons (c : Char) (piece : List Char) (rest : List (List Char)) :
    extendFirst c (piece :: rest) = (c :: piece) :: rest := rfl

/-- A character begins a new piece or belongs to the first one. -/
theorem piecesBy_cons (separates : Char → Bool) (c : Char) (text : List Char) :
    piecesBy separates (c :: text) =
      if separates c then [] :: piecesBy separates text
      else extendFirst c (piecesBy separates text) := rfl

/-- There is always a piece. -/
theorem piecesBy_ne_nil (separates : Char → Bool) (text : List Char) :
    piecesBy separates text ≠ [] := by
  cases text with
  | nil => simp [piecesBy]
  | cons c text =>
    rw [piecesBy_cons]
    split
    · simp
    · cases piecesBy separates text <;> simp [extendFirst]

/-- A text in which nothing separates is one piece. -/
theorem piecesBy_of_none {separates : Char → Bool} {text : List Char}
    (whole : ∀ c ∈ text, separates c = false) : piecesBy separates text = [text] := by
  induction text with
  | nil => rfl
  | cons c text inductionHypothesis =>
    have restWhole : ∀ c ∈ text, separates c = false :=
      fun c member => whole c (List.mem_cons_of_mem _ member)
    rw [piecesBy_cons, whole c List.mem_cons_self, inductionHypothesis restWhole]
    rfl

/-- Nothing in a piece separates. -/
theorem none_of_mem_piecesBy {separates : Char → Bool} {text piece : List Char}
    (member : piece ∈ piecesBy separates text) : ∀ c ∈ piece, separates c = false := by
  induction text generalizing piece with
  | nil => simp_all [piecesBy]
  | cons c text inductionHypothesis =>
    rw [piecesBy_cons] at member
    split at member
    · rcases List.mem_cons.1 member with rfl | inRest
      · simp
      · exact inductionHypothesis inRest
    · rename_i belongs
      obtain ⟨first, others, shape⟩ :=
        List.exists_cons_of_ne_nil (piecesBy_ne_nil separates text)
      rw [shape] at member inductionHypothesis
      rcases List.mem_cons.1 member with rfl | inOthers
      · exact List.forall_mem_cons.2
          ⟨by simpa using belongs, inductionHypothesis List.mem_cons_self⟩
      · exact inductionHypothesis (List.mem_cons_of_mem _ inOthers)

@[simp] theorem pieces_nil (separator : Char) : pieces separator [] = [[]] := rfl

theorem pieces_cons (separator c : Char) (text : List Char) :
    pieces separator (c :: text) =
      if c = separator then [] :: pieces separator text
      else extendFirst c (pieces separator text) := by
  simp [pieces, piecesBy]

theorem pieces_ne_nil (separator : Char) (text : List Char) : pieces separator text ≠ [] :=
  piecesBy_ne_nil _ text

/-- The first piece begins with the character in front, unless that separates. -/
theorem head?_pieces_cons (separator c : Char) (text : List Char) :
    (pieces separator (c :: text)).head? =
      if c = separator then some [] else (pieces separator text).head?.map (c :: ·) := by
  obtain ⟨first, others, shape⟩ := List.exists_cons_of_ne_nil (pieces_ne_nil separator text)
  rw [pieces_cons, shape]
  split <;> rfl

/-- The pieces behind the first one are the same with a character in front, unless that
separates. -/
theorem tail_pieces_cons (separator c : Char) (text : List Char) :
    (pieces separator (c :: text)).tail =
      if c = separator then pieces separator text else (pieces separator text).tail := by
  obtain ⟨first, others, shape⟩ := List.exists_cons_of_ne_nil (pieces_ne_nil separator text)
  rw [pieces_cons, shape]
  split <;> rfl

/-- Pieces behind the first separator stay there with anything in front. -/
theorem mem_tail_pieces_append {separator : Char} {text piece : List Char} (front : List Char)
    (isLater : piece ∈ (pieces separator text).tail) :
    piece ∈ (pieces separator (front ++ text)).tail := by
  induction front with
  | nil => exact isLater
  | cons c front inductionHypothesis =>
    rw [List.cons_append, tail_pieces_cons]
    split
    · exact List.mem_of_mem_tail inductionHypothesis
    · exact inductionHypothesis

/-- The piece before a separator stands in front of the pieces behind it. -/
theorem pieces_append_cons {separator : Char} {piece : List Char} (absent : separator ∉ piece)
    (rest : List Char) :
    pieces separator (piece ++ separator :: rest) = piece :: pieces separator rest := by
  induction piece with
  | nil => simp [pieces_cons]
  | cons c piece inductionHypothesis =>
    have different : c ≠ separator := fun same => absent (same ▸ List.mem_cons_self)
    have pieceAbsent : separator ∉ piece := fun member => absent (List.mem_cons_of_mem _ member)
    rw [List.cons_append, pieces_cons, if_neg different, inductionHypothesis pieceAbsent,
      extendFirst_cons]

/-- Around a separator a text is cut into the pieces of both sides. -/
theorem pieces_append_separator (separator : Char) (before rest : List Char) :
    pieces separator (before ++ separator :: rest) =
      pieces separator before ++ pieces separator rest := by
  induction before with
  | nil => simp [pieces_cons]
  | cons c before inductionHypothesis =>
    rw [List.cons_append, pieces_cons, pieces_cons, inductionHypothesis]
    split
    · rfl
    · obtain ⟨first, others, shape⟩ :=
        List.exists_cons_of_ne_nil (pieces_ne_nil separator before)
      rw [shape, List.cons_append, extendFirst_cons, extendFirst_cons, List.cons_append]

/-- A text without the separator is one piece. -/
theorem pieces_of_not_mem {separator : Char} {text : List Char} (absent : separator ∉ text) :
    pieces separator text = [text] :=
  piecesBy_of_none fun _ member => beq_eq_false_iff_ne.2 (ne_of_mem_of_not_mem member absent)

/-- No piece holds the separator. -/
theorem not_mem_of_mem_pieces {separator : Char} {text piece : List Char}
    (member : piece ∈ pieces separator text) : separator ∉ piece :=
  fun present => beq_eq_false_iff_ne.1 (none_of_mem_piecesBy member separator present) rfl

/-- A piece has only characters of the text. -/
theorem subset_of_mem_pieces {separator : Char} {text piece : List Char}
    (member : piece ∈ pieces separator text) : piece ⊆ text := by
  induction text generalizing piece with
  | nil => simp_all
  | cons c text inductionHypothesis =>
    rw [pieces_cons] at member
    split at member
    · rcases List.mem_cons.1 member with rfl | inRest
      · exact List.nil_subset _
      · exact List.subset_cons_of_subset c (inductionHypothesis inRest)
    · obtain ⟨first, others, shape⟩ := List.exists_cons_of_ne_nil (pieces_ne_nil separator text)
      rw [shape] at member inductionHypothesis
      rcases List.mem_cons.1 member with rfl | inOthers
      · exact List.cons_subset_cons c (inductionHypothesis List.mem_cons_self)
      · exact List.subset_cons_of_subset c
          (inductionHypothesis (List.mem_cons_of_mem _ inOthers))

/-- The first piece is the whole text, or a separator follows it there. -/
theorem eq_or_of_pieces_eq_cons {separator : Char} {text piece : List Char}
    {others : List (List Char)} (cut : pieces separator text = piece :: others) :
    text = piece ∨ ∃ rest, text = piece ++ separator :: rest := by
  by_cases present : separator ∈ text
  · obtain ⟨before, rest, rfl, absent⟩ := List.eq_append_cons_of_mem present
    rw [pieces_append_cons absent] at cut
    cases cut
    exact .inr ⟨rest, rfl⟩
  · rw [pieces_of_not_mem present] at cut
    cases cut
    exact .inl rfl

@[simp] theorem joinWith_nil (separator : List Char) : joinWith separator [] = [] := rfl

@[simp] theorem joinWith_singleton (separator piece : List Char) :
    joinWith separator [piece] = piece := by
  simp [joinWith]

/-- Pieces that are appended each bring a separator along. -/
theorem joinWith_append (separator : List Char) {first : List (List Char)} (nonempty : first ≠ [])
    (second : List (List Char)) :
    joinWith separator (first ++ second) =
      joinWith separator first ++ second.flatMap (separator ++ ·) := by
  cases first with
  | nil => exact absurd rfl nonempty
  | cons piece rest => simp [joinWith]

/-- A piece stands in front of the others with a separator between. -/
theorem joinWith_cons (separator piece : List Char) {rest : List (List Char)}
    (nonempty : rest ≠ []) :
    joinWith separator (piece :: rest) = piece ++ separator ++ joinWith separator rest := by
  cases rest with
  | nil => exact absurd rfl nonempty
  | cons next others => simp [joinWith]

/-- Cutting joined texts cuts each of them. -/
theorem pieces_joinWith_eq_flatMap {separator : Char} {texts : List (List Char)}
    (nonempty : texts ≠ []) :
    pieces separator (joinWith [separator] texts) = texts.flatMap (pieces separator) := by
  induction texts with
  | nil => exact absurd rfl nonempty
  | cons text others inductionHypothesis =>
    by_cases last : others = []
    · subst last
      simp
    · rw [joinWith_cons _ _ last, List.append_assoc, List.singleton_append,
        pieces_append_separator, inductionHypothesis last, List.flatMap_cons]

/-- Cutting joined pieces gives them back. -/
theorem pieces_joinWith {separator : Char} {names : List (List Char)}
    (nonempty : names ≠ []) (absent : ∀ name ∈ names, separator ∉ name) :
    pieces separator (joinWith [separator] names) = names := by
  have whole : names.map (pieces separator) = names.map fun name => [name] :=
    List.map_congr_left fun name member => pieces_of_not_mem (absent name member)
  rw [pieces_joinWith_eq_flatMap nonempty, List.flatMap_def, whole, ← List.flatMap_def,
    List.flatMap_singleton']

/-- Cutting joined pieces with a separator behind them gives them back in front of
the pieces that follow. -/
theorem pieces_joinWith_append {separator : Char} {names : List (List Char)}
    (nonempty : names ≠ []) (absent : ∀ name ∈ names, separator ∉ name) (rest : List Char) :
    pieces separator (joinWith [separator] names ++ separator :: rest) =
      names ++ pieces separator rest := by
  rw [pieces_append_separator, pieces_joinWith nonempty absent]

/-- Joining the pieces of a text gives it back. -/
theorem joinWith_pieces (separator : Char) (text : List Char) :
    joinWith [separator] (pieces separator text) = text := by
  induction text with
  | nil => rfl
  | cons c text inductionHypothesis =>
    obtain ⟨first, others, shape⟩ := List.exists_cons_of_ne_nil (pieces_ne_nil separator text)
    rw [pieces_cons]
    rw [shape] at inductionHypothesis ⊢
    split
    · rename_i same
      rw [joinWith_cons _ _ (List.cons_ne_nil _ _), inductionHypothesis, same]
      rfl
    · exact congrArg (c :: ·) inductionHypothesis

/-- Texts with the same pieces are the same. -/
theorem pieces_inj (separator : Char) {first second : List Char} :
    pieces separator first = pieces separator second ↔ first = second :=
  (Function.LeftInverse.injective (joinWith_pieces separator)).eq_iff

/-- What looks for a separator stops at the first one. -/
theorem takeWhile_bne_append_cons {separator : Char} {before : List Char}
    (absent : separator ∉ before) (after : List Char) :
    (before ++ separator :: after).takeWhile (· != separator) = before ∧
      (before ++ separator :: after).dropWhile (· != separator) = separator :: after := by
  have passed : ∀ c ∈ before, (c != separator) = true := by
    intro c member
    have different : c ≠ separator := fun same => absent (same ▸ member)
    simpa using different
  simp [List.dropWhile_append_of_pos passed, List.takeWhile_append_of_pos passed]

/-- A text is cut at the first separator. -/
theorem cutAt?_append_cons {separator : Char} {before : List Char} (absent : separator ∉ before)
    (after : List Char) :
    cutAt? separator (before ++ separator :: after) = some (before, after) := by
  obtain ⟨taken, left⟩ := takeWhile_bne_append_cons absent after
  rw [cutAt?, left, taken]

/-- What looks for a separator from behind passes over a text without one. -/
theorem bne_of_mem_reverse {separator : Char} {text : List Char} (absent : separator ∉ text) :
    ∀ c ∈ text.reverse, (c != separator) = true := by
  intro c member
  have different : c ≠ separator := fun same => absent (same ▸ List.mem_reverse.1 member)
  simpa using different

/-- The part before the last separator is what stands in front of the last piece. -/
theorem beforeLast?_append_cons {separator : Char} {last : List Char} (absent : separator ∉ last)
    (before : List Char) :
    beforeLast? separator (before ++ separator :: last) = some before := by
  simp [beforeLast?, List.dropWhile_append_of_pos (bne_of_mem_reverse absent)]

/-- A text without the separator has no part before it. -/
theorem beforeLast?_of_not_mem {separator : Char} {text : List Char} (absent : separator ∉ text) :
    beforeLast? separator text = none := by
  have nothingLeft : text.reverse.dropWhile (· != separator) = [] := by
    have dropped : (text.reverse ++ []).dropWhile (· != separator) = [] :=
      List.dropWhile_append_of_pos (bne_of_mem_reverse absent)
    simpa using dropped
  simp [beforeLast?, nothingLeft]

/-- The part after the last separator is the last piece. -/
theorem afterLast_append_cons {separator : Char} {last : List Char} (absent : separator ∉ last)
    (before : List Char) : afterLast separator (before ++ separator :: last) = last := by
  simp [afterLast, List.takeWhile_append_of_pos (bne_of_mem_reverse absent)]

end ContextDb.Text
