import ContextDb.Proofs.ByteOrder
import ContextDb.Proofs.Lines

/-!
# Searching files line by line

The lines that are found are exactly the numbered lines of the files in the subtree that
hold the pattern, in the order of their addresses and then of their numbers.
-/

namespace ContextDb.Store

open Text Uri

variable {store : Store} {target pattern base : String} {caseInsensitive : Bool} {entry : Entry}

/-- A line that answers a search in a subtree, as it is written in its file. -/
structure Answers (store : Store) (base pattern : String) (caseInsensitive : Bool)
    (found : LineMatch) : Prop where
  isLine : ∃ entry, store.entries.get? found.uri = some entry ∧ entry.isFile = true ∧
    HasLine entry.content.toList found.line found.content.toList
  within : found.uri = base ∨ isBelow found.uri base = true
  asWritten : caseInsensitive = false → pattern.toList <:+: found.content.toList
  lowered : caseInsensitive = true → lower pattern.toList <:+: lower found.content.toList

/-- Lines come in the order of the bytes of their addresses, those of one file by number. -/
def FoundBefore (first second : LineMatch) : Prop :=
  bytesOf first.uri < bytesOf second.uri ∨ first.uri = second.uri ∧ first.line < second.line

theorem accepting_iff {wanted line : List Char} :
    accepting caseInsensitive wanted line = true ↔
      (caseInsensitive = false → wanted <:+: line) ∧
        (caseInsensitive = true → lower wanted <:+: lower line) := by
  cases caseInsensitive <;> simp [accepting, occursIn_iff_isInfix]

/-- A line of a file is listed if it is accepted, under its number and as it is written. -/
theorem mem_matchingLines_iff_hasLine {accepts : List Char → Bool} {found : LineMatch} :
    found ∈ matchingLines accepts entry ↔ found.uri = entry.uri ∧
      HasLine entry.content.toList found.line found.content.toList ∧
        accepts found.content.toList = true := by
  rw [mem_matchingLines_iff]
  constructor
  · rintro ⟨⟨line, number⟩, isLine, accepted, rfl⟩
    refine ⟨rfl, ?_, ?_⟩
    · rw [String.toList_ofList]
      exact hasLine_iff_mem_zipIdx.2 isLine
    · rw [String.toList_ofList]
      exact accepted
  · rintro ⟨sameUri, isLine, accepted⟩
    refine ⟨(found.content.toList, found.line), hasLine_iff_mem_zipIdx.1 isLine, accepted, ?_⟩
    rw [String.ofList_toList, ← sameUri]

theorem pairwise_zipIdx {α : Type} (items : List α) (start : Nat) :
    (items.zipIdx start).Pairwise fun first second => first.2 < second.2 := by
  induction items generalizing start with
  | nil => exact .nil
  | cons item rest inductionHypothesis =>
    rw [List.zipIdx_cons, List.pairwise_cons]
    exact ⟨fun later member => List.le_snd_of_mem_zipIdx member, inductionHypothesis _⟩

/-- The lines of one file come in the order of their numbers. -/
theorem pairwise_matchingLines (accepts : List Char → Bool) (entry : Entry) :
    (matchingLines accepts entry).Pairwise FoundBefore := by
  rw [matchingLines, List.pairwise_filterMap]
  refine (pairwise_zipIdx _ 1).imp fun {first second} less found isFound other isOther => ?_
  obtain ⟨_, same⟩ := Option.ite_none_right_eq_some.1 isFound
  obtain ⟨_, alsoSame⟩ := Option.ite_none_right_eq_some.1 isOther
  cases same
  cases alsoSame
  exact .inr ⟨rfl, less⟩

/-- The files in a subtree are listed in the order of their addresses. -/
theorem pairwise_filesWithin (tree : Tree store.entries) (base : String) :
    (store.filesWithin base).Pairwise fun first second => first.uri < second.uri :=
  (pairwise_values tree).filter _

theorem pairwise_flatMap_matchingLines (tree : Tree store.entries) (base : String)
    (accepts : List Char → Bool) :
    ((store.filesWithin base).flatMap (matchingLines accepts)).Pairwise FoundBefore := by
  rw [List.pairwise_flatMap]
  refine ⟨fun entry _ => pairwise_matchingLines accepts entry, ?_⟩
  refine (pairwise_filesWithin tree base).imp
    fun {first second} less found isFound other isOther => ?_
  rw [mem_matchingLines_iff_hasLine] at isFound isOther
  left
  rw [isFound.1, isOther.1]
  exact bytesOf_lt_iff.2 less

/-- What is found are the lines that answer the search. -/
theorem mem_flatMap_matchingLines_iff (tree : Tree store.entries) {found : LineMatch} :
    found ∈ (store.filesWithin base).flatMap
        (matchingLines (accepting caseInsensitive pattern.toList)) ↔
      Answers store base pattern caseInsensitive found := by
  rw [List.mem_flatMap]
  constructor
  · rintro ⟨entry, isFile, here⟩
    obtain ⟨stored, kind, within⟩ := (mem_filesWithin_iff tree).1 isFile
    obtain ⟨sameUri, isLine, accepted⟩ := mem_matchingLines_iff_hasLine.1 here
    obtain ⟨asWritten, lowered⟩ := accepting_iff.1 accepted
    exact ⟨⟨entry, sameUri ▸ stored, kind, isLine⟩, sameUri ▸ within, asWritten, lowered⟩
  · rintro ⟨⟨entry, stored, kind, isLine⟩, within, asWritten, lowered⟩
    have keyed : entry.uri = found.uri := tree.keyed stored
    refine ⟨entry, (mem_filesWithin_iff tree).2 ⟨keyed ▸ stored, kind, keyed ▸ within⟩, ?_⟩
    exact mem_matchingLines_iff_hasLine.2
      ⟨keyed.symm, isLine, accepting_iff.2 ⟨asWritten, lowered⟩⟩

/-- A search fails for a missing entry exactly if everything else is in order. -/
theorem grep_eq_notFound_iff {missing : String} :
    store.grep target pattern caseInsensitive = .error (.notFound missing) ↔
      normalize target = .ok missing ∧ pattern ≠ "" ∧ store.entries.get? missing = none := by
  rw [grep, bind_eq_error_iff]
  constructor
  · rintro (badAddress | ⟨base, normalized, failed⟩)
    · obtain ⟨reason, other⟩ := exists_invalidUri_of_normalize badAddress
      cases other
    · by_cases empty : pattern = ""
      · simp [empty, throw, throwThe, MonadExceptOf.throw, bind, Except.bind] at failed
      · cases present : store.entries.contains base with
        | false =>
          simp [empty, present, throw, throwThe, MonadExceptOf.throw, bind, Except.bind] at failed
          exact ⟨failed ▸ normalized, empty, failed ▸ SortedMap.contains_eq_false_iff.1 present⟩
        | true => simp [empty, present, pure, Except.pure] at failed
  · rintro ⟨normalized, nonempty, missing⟩
    refine .inr ⟨_, normalized, ?_⟩
    simp [nonempty, SortedMap.contains_eq_false_iff.2 missing, throw, throwThe,
      MonadExceptOf.throw, bind, Except.bind]

/-- A search in what exists finds every line that answers it, each once and in order; it
misses nothing but a subtree that does not exist. -/
theorem grep_finds_answers (reachable : Reachable store) (target pattern : String)
    (caseInsensitive : Bool) :
    (∀ base entry, normalize target = .ok base → pattern ≠ "" →
      store.entries.get? base = some entry →
      ∃ found, store.grep target pattern caseInsensitive = .ok found ∧
        (∀ line, line ∈ found ↔ Answers store base pattern caseInsensitive line) ∧
        found.Pairwise FoundBefore) ∧
    ∀ missing, store.grep target pattern caseInsensitive = .error (.notFound missing) ↔
      normalize target = .ok missing ∧ pattern ≠ "" ∧ store.entries.get? missing = none := by
  have tree := reachable.sound.tree
  refine ⟨fun base entry normalized nonempty stored => ?_, fun missing => grep_eq_notFound_iff⟩
  have present := SortedMap.contains_iff.2 ⟨entry, stored⟩
  exact ⟨_, grep_eq_ok_iff.2 ⟨base, normalized, nonempty, present, rfl⟩,
    fun _ => mem_flatMap_matchingLines_iff tree, pairwise_flatMap_matchingLines tree base _⟩

/-- Two files, of which the first one has an empty line and ends with a line feed. -/
def diary : Store :=
  (empty 0).run [(⟨1, ⟨0⟩⟩, .addResource "viking://d/one" "Rain\r\n\nno rain\n"),
    (⟨2, ⟨0⟩⟩, .addResource "viking://d!" "rain\r")]

theorem diary_is_searched :
    Reachable diary ∧
      diary.grep "viking://d" "RAIN" true =
        .ok [⟨"viking://d/one", 1, "Rain"⟩, ⟨"viking://d/one", 3, "no rain"⟩] ∧
      ((∀ base entry, normalize "viking://d" = .ok base → "RAIN" ≠ "" →
        diary.entries.get? base = some entry →
        ∃ found, diary.grep "viking://d" "RAIN" true = .ok found ∧
          (∀ line, line ∈ found ↔ Answers diary base "RAIN" true line) ∧
          found.Pairwise FoundBefore) ∧
      ∀ missing, diary.grep "viking://d" "RAIN" true = .error (.notFound missing) ↔
        normalize "viking://d" = .ok missing ∧ "RAIN" ≠ "" ∧ diary.entries.get? missing = none) :=
  have reachable : Reachable diary := (Reachable.empty 0).run _
  ⟨reachable, by decide +kernel, grep_finds_answers reachable "viking://d" "RAIN" true⟩

end ContextDb.Store
