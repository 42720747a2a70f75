import ContextDb.Proofs.Lowering
import ContextDb.Proofs.Pieces
import ContextDb.Proofs.Planting
import ContextDb.Proofs.Restoring
import ContextDb.Proofs.Traversal

/-!
# Searching without regard to case

Ignoring case is meant to find more. Both the text that is sought and the text that
is searched are lowered as wholes, so that a search is only certain to find what it
finds letter by letter if the lower-case form of the text that is sought does not
depend on what stands around it.
-/

namespace ContextDb.Text

variable {wanted text : List Char}

/-! ## Occurrences -/

theorem occursIn_iff_isInfix : occursIn wanted text = true ↔ wanted <:+: text := by
  induction text with
  | nil => simp [occursIn]
  | cons c rest inductionHypothesis =>
    rw [occursIn, List.infix_cons_iff, ← inductionHypothesis, ← List.isPrefixOf_iff_prefix]
    cases wanted.isPrefixOf (c :: rest) <;> simp

theorem le_countFrom (found skip : Nat) : found ≤ countFrom wanted found skip text := by
  induction text generalizing found skip with
  | nil => exact Nat.le_refl _
  | cons c rest inductionHypothesis =>
    cases skip with
    | succ remaining => exact inductionHypothesis found remaining
    | zero =>
      rw [countFrom]
      split
      · exact Nat.le_of_succ_le (inductionHypothesis (found + 1) _)
      · exact inductionHypothesis found 0

/-- A text that occurs is counted, although occurrences are counted without overlap. -/
theorem occurrences_ne_zero_iff (nonempty : wanted ≠ []) :
    occurrences wanted text ≠ 0 ↔ wanted <:+: text := by
  induction text with
  | nil => simpa [occurrences, countFrom] using nonempty
  | cons c rest inductionHypothesis =>
    rw [occurrences, countFrom, List.infix_cons_iff, ← inductionHypothesis,
      ← List.isPrefixOf_iff_prefix]
    split
    · rename_i atStart
      have counted : 0 + 1 ≤ countFrom wanted (0 + 1) (wanted.length - 1) rest :=
        le_countFrom _ _
      exact iff_of_true (by omega) (.inl atStart)
    · rename_i notHere
      simp [notHere, occurrences]

/-! ## Words and lines -/

/-- A text that can be a word of a query. -/
def IsWord (text : List Char) : Prop :=
  text ≠ [] ∧ ∀ c ∈ text, isWhite c = false

theorem isWord_of_mem_words {word : List Char} (member : word ∈ words text) : IsWord word := by
  obtain ⟨isPiece, nonempty⟩ := List.mem_filter.1 member
  exact ⟨by simpa using nonempty, none_of_mem_piecesBy isPiece⟩

theorem words_of_isWord (isWord : IsWord text) : words text = [text] := by
  rw [words, piecesBy_of_none isWord.2]
  simpa using isWord.1

theorem dropReturn_sublist (line : List Char) : (dropReturn line).Sublist line := by
  rw [dropReturn]
  split
  · exact List.dropLast_sublist line
  · exact List.Sublist.refl line

/-- No line holds a line feed. -/
theorem not_mem_of_mem_lines {line : List Char} (member : line ∈ lines text) : '\n' ∉ line := by
  have noFeed : ∀ piece ∈ pieces '\n' text, '\n' ∉ piece :=
    fun _ isPiece => not_mem_of_mem_pieces isPiece
  rcases List.mem_append.1 member with ended | last
  · obtain ⟨piece, isPiece, rfl⟩ := List.mem_map.1 ended
    exact fun present =>
      noFeed piece (List.dropLast_subset _ isPiece) ((dropReturn_sublist piece).subset present)
  · have isLast := List.getLast?_eq_some_getLast (pieces_ne_nil '\n' text)
    rw [isLast, Option.getD_some] at last
    split at last
    · cases last
    · cases List.mem_singleton.1 last
      exact noFeed _ (List.getLast_mem _)

theorem lines_of_not_mem (nonempty : text ≠ []) (absent : '\n' ∉ text) : lines text = [text] := by
  simp [lines, pieces_of_not_mem absent, nonempty]

end ContextDb.Text

namespace ContextDb.Store

open Text Uri

variable {store : Store} {target pattern query base : String}

/-! ## Searching lines -/

/-- Whether a line answers a search for a text. -/
def accepting (caseInsensitive : Bool) (wanted line : List Char) : Bool :=
  if caseInsensitive then occursIn (lower wanted) (lower line) else occursIn wanted line

theorem grep_eq_ok_iff {caseInsensitive : Bool} {found : List LineMatch} :
    store.grep target pattern caseInsensitive = .ok found ↔
      ∃ base, normalize target = .ok base ∧ pattern ≠ "" ∧ store.entries.contains base = true ∧
        found = (store.filesWithin base).flatMap
          (matchingLines (accepting caseInsensitive pattern.toList)) := by
  have same : (if caseInsensitive then fun line => occursIn (lower pattern.toList) (lower line)
      else occursIn pattern.toList) = accepting caseInsensitive pattern.toList := by
    funext line
    cases caseInsensitive <;> rfl
  rw [grep, bind_eq_ok_iff]
  refine exists_congr fun base => and_congr_right fun _ => ?_
  simp only [same]
  by_cases empty : pattern = ""
  · simp [empty, throw, throwThe, MonadExceptOf.throw, bind, Except.bind]
  · cases store.entries.contains base with
    | false => simp [empty, throw, throwThe, MonadExceptOf.throw, bind, Except.bind]
    | true =>
      simp only [String.isEmpty_iff, empty, Bool.not_true, Bool.false_eq_true, if_false, pure,
        Except.pure, Except.ok.injEq, ne_eq, not_false_iff, true_and]
      exact eq_comm

theorem mem_matchingLines_iff {accepts : List Char → Bool} {entry : Entry} {found : LineMatch} :
    found ∈ matchingLines accepts entry ↔
      ∃ line ∈ (lines entry.content.toList).zipIdx 1, accepts line.1 = true ∧
        found = ⟨entry.uri, line.2, String.ofList line.1⟩ := by
  rw [matchingLines, List.mem_filterMap]
  refine exists_congr fun line => and_congr_right fun _ => ?_
  by_cases accepted : accepts line.1 = true
  · simp [accepted, eq_comm]
  · simp [accepted]

/-- What makes more lines answer makes more answers. -/
theorem matchingLines_subset {accepts admits : List Char → Bool} {entry : Entry}
    (more : ∀ line ∈ lines entry.content.toList, accepts line = true → admits line = true) :
    matchingLines accepts entry ⊆ matchingLines admits entry := by
  intro found member
  obtain ⟨line, isLine, accepted, same⟩ := mem_matchingLines_iff.1 member
  exact mem_matchingLines_iff.2
    ⟨line, isLine, more line.1 (List.fst_mem_of_mem_zipIdx isLine) accepted, same⟩

/-- Every line that holds the pattern as it is written is found when case is ignored. -/
def KeptByGrep (pattern : String) : Prop :=
  ∀ store target found, Reachable store → store.grep target pattern false = .ok found →
    ∃ wider, store.grep target pattern true = .ok wider ∧ found ⊆ wider

theorem keptByGrep_of_steady (steady : '\n' ∉ pattern.toList → Steady pattern.toList) :
    KeptByGrep pattern := by
  intro store target found _ done
  obtain ⟨base, normalized, nonempty, present, rfl⟩ := grep_eq_ok_iff.1 done
  refine ⟨_, grep_eq_ok_iff.2 ⟨base, normalized, nonempty, present, rfl⟩, ?_⟩
  intro line member
  obtain ⟨entry, isFile, here⟩ := List.mem_flatMap.1 member
  refine List.mem_flatMap.2 ⟨entry, isFile, matchingLines_subset ?_ here⟩
  intro line isLine occurs
  have written : pattern.toList <:+: line := occursIn_iff_isInfix.1 occurs
  have absent : '\n' ∉ pattern.toList :=
    fun present => not_mem_of_mem_lines isLine (written.subset present)
  exact occursIn_iff_isInfix.2 ((steady absent).isInfix_lower written)

/-! ## Searching files -/

theorem find_eq {target : Option String} (normalized : normalize (target.getD scheme) = .ok base)
    (asked : words query.toList ≠ []) (limit : Nat) :
    store.find query target limit =
      .ok ((((store.filesWithin base).filterMap (hitOf (queryTerms query))).mergeSort
        Hit.precedes).take limit) := by
  have notEmpty : (queryTerms query).isEmpty = false := by
    simpa [queryTerms] using asked
  simp [find, normalized, notEmpty, bind, Except.bind, pure, Except.pure]

theorem scoreOf_ne_zero_iff {terms : List (List Char)} {text : List Char} :
    scoreOf terms text ≠ 0 ↔ ∃ term ∈ terms, occurrences term text ≠ 0 := by
  induction terms with
  | nil => simp [scoreOf]
  | cons term others inductionHypothesis =>
    rw [List.exists_mem_cons_iff, ← inductionHypothesis]
    simp only [scoreOf, List.foldr_cons]
    omega

/-- A file is a hit exactly if a word of the query occurs in it after both are lowered. -/
theorem hitOf_eq_some_iff {entry : Entry} :
    (∃ hit, hitOf (queryTerms query) entry = some hit) ↔
      ∃ word ∈ words query.toList, lower word <:+: lower entry.content.toList := by
  have scored : scoreOf (queryTerms query) (lower entry.content.toList) ≠ 0 ↔
      ∃ word ∈ words query.toList, lower word <:+: lower entry.content.toList := by
    simp only [scoreOf_ne_zero_iff, queryTerms, List.mem_map, exists_exists_and_eq_and]
    refine exists_congr fun word => and_congr_right fun isWord => ?_
    exact occurrences_ne_zero_iff (lower_ne_nil (isWord_of_mem_words isWord).1)
  rw [← scored, hitOf]
  split
  · simp_all
  · simp_all

/-- A hit names its file, the rounded score and a line around the first word. -/
theorem eq_of_hitOf {terms : List (List Char)} {entry : Entry} {hit : Hit}
    (isHit : hitOf terms entry = some hit) :
    hit = ⟨entry.uri,
      Decimal.Binary64.singleRounded (scoreOf terms (lower entry.content.toList)),
      snippetAround entry.content.toList (lower entry.content.toList) (terms.head?.getD [])⟩ := by
  rw [hitOf] at isHit
  split at isHit
  · cases isHit
  · exact (Option.some.inj isHit).symm

theorem uri_of_hitOf {terms : List (List Char)} {entry : Entry} {hit : Hit}
    (isHit : hitOf terms entry = some hit) : hit.uri = entry.uri :=
  congrArg Hit.uri (eq_of_hitOf isHit)

/-- What is found are hits of files in the subtree. -/
theorem exists_file_of_mem_find {target : Option String} {limit : Nat} {hits : List Hit} {hit : Hit}
    (normalized : normalize (target.getD scheme) = .ok base) (asked : words query.toList ≠ [])
    (done : store.find query target limit = .ok hits) (isHit : hit ∈ hits) :
    ∃ entry ∈ store.filesWithin base, hitOf (queryTerms query) entry = some hit := by
  rw [find_eq normalized asked] at done
  cases done
  exact List.mem_filterMap.1 (List.mem_mergeSort.1 (List.mem_of_mem_take isHit))

theorem mem_filesWithin_iff (tree : Tree store.entries) {entry : Entry} :
    entry ∈ store.filesWithin base ↔ store.entries.get? entry.uri = some entry ∧
      entry.isFile = true ∧ (entry.uri = base ∨ isBelow entry.uri base = true) := by
  simp [filesWithin, mem_values_iff tree]

/-- Every file that holds the word as it is written is found, unless better ones use up
the limit. -/
def KeptByFind (word : List Char) : Prop :=
  ∀ store query target base key entry, Reachable store →
    normalize ((target : Option String).getD scheme) = .ok base →
    store.entries.get? key = some entry → entry.isFile = true →
    (key = base ∨ isBelow key base = true) →
    word ∈ words (query : String).toList → word <:+: entry.content.toList →
    ∃ enough, ∀ limit, enough ≤ limit →
      ∃ hits, store.find query target limit = .ok hits ∧ ∃ hit ∈ hits, hit.uri = key

/-- A file in which a word of the query occurs, after both are lowered, has a hit, and the hit
is found unless better ones use up the limit. -/
theorem exists_hit_of_isInfix {target : Option String}
    {word : List Char} {entry : Entry} (normalized : normalize (target.getD scheme) = .ok base)
    (found : entry ∈ store.filesWithin base) (isWord : word ∈ words query.toList)
    (occurs : lower word <:+: lower entry.content.toList) :
    ∃ hit, hitOf (queryTerms query) entry = some hit ∧ ∃ enough, ∀ limit, enough ≤ limit →
      ∃ hits, store.find query target limit = .ok hits ∧ hit ∈ hits := by
  obtain ⟨hit, isHit⟩ := hitOf_eq_some_iff.2 ⟨word, isWord, occurs⟩
  let hits := ((store.filesWithin base).filterMap (hitOf (queryTerms query))).mergeSort
    Hit.precedes
  refine ⟨hit, isHit, hits.length, fun limit enough =>
    ⟨_, find_eq normalized (List.ne_nil_of_mem isWord) limit, ?_⟩⟩
  rw [List.take_of_length_le enough, List.mem_mergeSort]
  exact List.mem_filterMap.2 ⟨entry, found, isHit⟩

theorem keptByFind_of_steady {word : List Char} (steady : IsWord word → Steady word) :
    KeptByFind word := by
  intro store query target base key entry reachable normalized stored isFile within isWord occurs
  have keyed : entry.uri = key := reachable.sound.tree.keyed stored
  have found : entry ∈ store.filesWithin base :=
    (mem_filesWithin_iff reachable.sound.tree).2 ⟨keyed ▸ stored, isFile, keyed ▸ within⟩
  obtain ⟨hit, isHit, enough, listed⟩ := exists_hit_of_isInfix normalized found isWord
    ((steady (isWord_of_mem_words isWord)).isInfix_lower occurs)
  refine ⟨enough, fun limit large => ?_⟩
  obtain ⟨hits, done, member⟩ := listed limit large
  exact ⟨hits, done, hit, member, (uri_of_hitOf isHit).trans keyed⟩

/-! ## Texts that are missed -/

/-- A store with one file. -/
def holding (content : String) : Store :=
  (empty 0).run [(⟨1, ⟨0⟩⟩, .addResource "viking://a" content)]

theorem reachable_holding (content : String) : Reachable (holding content) :=
  (Reachable.empty 0).run _

theorem get?_holding (content : String) :
    (holding content).entries.get? "viking://a" = some (.newFile "viking://a" content 1) := by
  have written : ((empty 0).addResource "viking://a" content 1).1 =
      .ok (.newFile "viking://a" content 1) := rfl
  obtain ⟨target, normalized, _, planted, _⟩ :=
    isPlanted_of_addResource (Reachable.empty 0).sound.tree written
  have here : normalize "viking://a" = .ok "viking://a" := rfl
  cases here.symm.trans normalized
  exact planted.here

/-- A file that holds a text on its only line, in which the lowered text is not found. -/
theorem exists_hiding_file {text : List Char} (unsteady : ¬ Steady text)
    (oneLine : '\n' ∉ text) :
    ∃ content : String, text <:+: content.toList ∧ ¬ lower text <:+: lower content.toList ∧
      lines content.toList = [content.toList] := by
  obtain ⟨whole, occurs, letters, hidden⟩ := exists_hiding_of_not_steady unsteady
  have nonempty : whole ≠ [] := by
    rintro rfl
    cases List.eq_nil_of_infix_nil occurs
    exact hidden (List.infix_refl _)
  have absent : '\n' ∉ whole := by
    intro present
    rcases letters _ present with inText | isPlain
    · exact oneLine inText
    · revert isPlain
      decide
  refine ⟨String.ofList whole, ?_⟩
  rw [String.toList_ofList]
  exact ⟨occurs, hidden, lines_of_not_mem nonempty absent⟩

theorem steady_of_keptByGrep (kept : KeptByGrep pattern) (oneLine : '\n' ∉ pattern.toList) :
    Steady pattern.toList := by
  by_contra unsteady
  obtain ⟨content, occurs, hidden, isLine⟩ := exists_hiding_file unsteady oneLine
  have nonempty : pattern ≠ "" := by
    rintro rfl
    exact unsteady (steady_of_not_mem (by simp))
  have present : (holding content).entries.contains "viking://a" = true :=
    SortedMap.contains_iff.2 ⟨_, get?_holding content⟩
  have done : (holding content).grep "viking://a" pattern false = .ok _ :=
    grep_eq_ok_iff.2 ⟨"viking://a", rfl, nonempty, present, rfl⟩
  obtain ⟨wider, widerDone, kept⟩ := kept _ _ _ (reachable_holding content) done
  obtain ⟨base, _, _, _, rfl⟩ := grep_eq_ok_iff.1 widerDone
  have isFile : .newFile "viking://a" content 1 ∈ (holding content).filesWithin "viking://a" :=
    (mem_filesWithin_iff (reachable_holding content).sound.tree).2
      ⟨get?_holding content, rfl, .inl rfl⟩
  have here : ⟨"viking://a", 1, content⟩ ∈ matchingLines (accepting false pattern.toList)
      (.newFile "viking://a" content 1) := by
    refine mem_matchingLines_iff.2 ⟨(content.toList, 1), ?_, occursIn_iff_isInfix.2 occurs, ?_⟩
    · simp [Entry.newFile, isLine]
    · simp [Entry.newFile]
  obtain ⟨entry, _, alsoHere⟩ := List.mem_flatMap.1 (kept (List.mem_flatMap.2 ⟨_, isFile, here⟩))
  obtain ⟨line, _, accepted, same⟩ := mem_matchingLines_iff.1 alsoHere
  have isContent : line.1 = content.toList := by
    simp only [LineMatch.mk.injEq] at same
    rw [same.2.2, String.toList_ofList]
  exact hidden (isContent ▸ occursIn_iff_isInfix.1 accepted)

theorem steady_of_keptByFind {word : List Char} (kept : KeptByFind word) (isWord : IsWord word) :
    Steady word := by
  by_contra unsteady
  have oneLine : '\n' ∉ word := by
    intro present
    have notWhite := isWord.2 _ present
    revert notWhite
    decide
  obtain ⟨content, occurs, hidden, _⟩ := exists_hiding_file unsteady oneLine
  have tree := (reachable_holding content).sound.tree
  have asked : words (String.ofList word).toList = [word] := by
    rw [String.toList_ofList, words_of_isWord isWord]
  have normalized : normalize ((some "viking://a").getD scheme) = .ok "viking://a" := rfl
  obtain ⟨enough, found⟩ := kept (holding content) (String.ofList word) (some "viking://a") _ _ _
    (reachable_holding content) normalized (get?_holding content) rfl (.inl rfl)
    (asked ▸ List.mem_cons_self) occurs
  obtain ⟨hits, done, hit, isHit, hitUri⟩ := found enough (Nat.le_refl _)
  obtain ⟨entry, isFile, gives⟩ :=
    exists_file_of_mem_find normalized (asked ▸ List.cons_ne_nil _ _) done isHit
  have stored := ((mem_filesWithin_iff tree).1 isFile).1
  rw [← uri_of_hitOf gives, hitUri, get?_holding] at stored
  cases stored
  obtain ⟨other, isOther, foundThere⟩ := hitOf_eq_some_iff.1 ⟨hit, gives⟩
  rw [asked, List.mem_singleton] at isOther
  exact hidden (isOther ▸ foundThere)

/-- A search without regard to case is certain to find what is there letter by letter
exactly if the text that is sought is steady; texts that no line or no query can hold
are not at stake. -/
theorem ignoring_case_widens_iff (text : String) :
    (KeptByGrep text ↔ ('\n' ∉ text.toList → Steady text.toList)) ∧
      (KeptByFind text.toList ↔ (IsWord text.toList → Steady text.toList)) :=
  ⟨⟨steady_of_keptByGrep, keptByGrep_of_steady⟩,
    ⟨steady_of_keptByFind, keptByFind_of_steady⟩⟩

/-- A capital sigma that ends a word is not found by itself when case is ignored. -/
theorem final_sigma_is_missed :
    Reachable (holding "\u0391\u03A3") ∧
      (holding "\u0391\u03A3").grep "viking://" "\u03A3" false =
        .ok [⟨"viking://a", 1, "\u0391\u03A3"⟩] ∧
      (holding "\u0391\u03A3").grep "viking://" "\u03A3" true = .ok [] ∧
      ∀ limit, (holding "\u0391\u03A3").find "\u03A3" none limit = .ok [] := by
  refine ⟨reachable_holding _, by decide +kernel, by decide +kernel, fun limit => ?_⟩
  have noHits : ((holding "\u0391\u03A3").filesWithin scheme).filterMap
      (hitOf (queryTerms "\u03A3")) = [] := by decide +kernel
  have normalized : normalize ((none : Option String).getD scheme) = .ok scheme := rfl
  rw [find_eq normalized (by decide +kernel), noHits]
  simp

end ContextDb.Store
