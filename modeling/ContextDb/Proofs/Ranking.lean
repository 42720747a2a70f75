import ContextDb.Proofs.Counting
import ContextDb.Proofs.Scanning

/-!
# The best files for a query

The hits of a query are the first ones of a ranking of all files in the subtree that have a
score: by score and then by the bytes of the address. Scores are compared after they have
been rounded to single precision, which changes none below two to the power of 24.
-/

namespace ContextDb.Decimal.Binary64

variable {n : Nat}

theorem singleRounded_of_lt (small : n < 16777216) : singleRounded n = n := by
  have short : n.log2 < 24 := by
    by_cases zero : n = 0
    · subst zero
      decide
    · exact (Nat.log2_lt zero).2 small
  have unit : n.log2 + 1 - 24 = 0 := by omega
  simp [singleRounded, unit, roundedQuotient, Nat.mod_one]

theorem le_roundedQuotient (numerator denominator : Nat) :
    numerator / denominator ≤ roundedQuotient numerator denominator := by
  simp only [roundedQuotient]
  split_ifs <;> omega

/-- Larger scores stay at least as large as the bound, since it is a number of single precision
itself. -/
theorem le_singleRounded (large : 16777216 ≤ n) : 16777216 ≤ singleRounded n := by
  have positive : n ≠ 0 := by omega
  have long : 24 ≤ n.log2 := (Nat.le_log2 positive).2 large
  obtain ⟨extra, isLong⟩ := Nat.exists_eq_add_of_le long
  have unit : n.log2 + 1 - 24 = extra + 1 := by omega
  have atLeast : 8388608 * Nat.pow 2 (extra + 1) ≤ n := by
    have power := Nat.log2_self_le positive
    rw [isLong, show 24 + extra = 23 + (extra + 1) by omega, Nat.pow_add] at power
    exact power
  have quotient : 8388608 ≤ n / Nat.pow 2 (extra + 1) :=
    (Nat.le_div_iff_mul_le (Nat.two_pow_pos _)).2 atLeast
  have atLeastTwo : 2 ≤ Nat.pow 2 (extra + 1) := Nat.le_self_pow (Nat.succ_ne_zero extra) 2
  calc 16777216 = 8388608 * 2 := rfl
    _ ≤ roundedQuotient n (Nat.pow 2 (extra + 1)) * Nat.pow 2 (extra + 1) :=
      Nat.mul_le_mul (quotient.trans (le_roundedQuotient _ _)) atLeastTwo
    _ = singleRounded n := by rw [singleRounded, unit]

end ContextDb.Decimal.Binary64

namespace ContextDb.Store

open Text Uri Decimal

variable {store : Store} {query base : String} {target : Option String}

/-! ## Ranks -/

/-- A score at an address comes before another one: the higher score first, equal scores by
the bytes of their addresses. -/
def RanksBefore (first second : String × Nat) : Prop :=
  second.2 < first.2 ∨ first.2 = second.2 ∧ bytesOf first.1 < bytesOf second.1

theorem RanksBefore.irreflexive (ranked : String × Nat) : ¬ RanksBefore ranked ranked := by
  rintro (less | ⟨_, less⟩)
  · exact Nat.lt_irrefl _ less
  · exact List.lt_irrefl _ less

theorem RanksBefore.asymmetric {first second : String × Nat} (before : RanksBefore first second) :
    ¬ RanksBefore second first := by
  rintro (less | ⟨same, less⟩)
  · rcases before with higher | ⟨same, _⟩ <;> omega
  · rcases before with higher | ⟨_, earlier⟩
    · omega
    · exact List.lt_asymm earlier less

/-- Scores of which one is below the bound rank as their rounded values do. -/
theorem RanksBefore.of_rounded {firstUri secondUri : String} {firstScore secondScore : Nat}
    (before : RanksBefore (firstUri, Binary64.singleRounded firstScore)
      (secondUri, Binary64.singleRounded secondScore))
    (small : firstScore < 16777216 ∨ secondScore < 16777216) :
    RanksBefore (firstUri, firstScore) (secondUri, secondScore) := by
  by_cases firstSmall : firstScore < 16777216
  · rw [Binary64.singleRounded_of_lt firstSmall] at before
    by_cases secondSmall : secondScore < 16777216
    · rwa [Binary64.singleRounded_of_lt secondSmall] at before
    · have secondLarge := Binary64.le_singleRounded (Nat.le_of_not_lt secondSmall)
      rcases before with higher | ⟨same, _⟩ <;> omega
  · have secondSmall := small.resolve_left firstSmall
    exact .inl (Nat.lt_of_lt_of_le secondSmall (Nat.le_of_not_lt firstSmall))

/-! ## The order of hits -/

theorem precedes_iff_or {first second : Hit} : first.precedes second = true ↔
    second.score < first.score ∨ first.score = second.score ∧ first.uri ≤ second.uri := by
  simp [Hit.precedes]

theorem precedes_trans {first second third : Hit} (earlier : first.precedes second = true)
    (later : second.precedes third = true) : first.precedes third = true := by
  rw [precedes_iff_or] at *
  rcases earlier with higher | ⟨same, less⟩ <;> rcases later with alsoHigher | ⟨alsoSame, alsoLess⟩
  · exact .inl (by omega)
  · exact .inl (by omega)
  · exact .inl (by omega)
  · exact .inr ⟨by omega, String.le_trans less alsoLess⟩

theorem precedes_total (first second : Hit) :
    (first.precedes second || second.precedes first) = true := by
  rw [Bool.or_eq_true, precedes_iff_or, precedes_iff_or]
  rcases Nat.lt_trichotomy first.score second.score with lower | same | higher
  · exact .inr (.inl lower)
  · exact (String.le_total first.uri second.uri).imp (fun less => .inr ⟨same, less⟩)
      fun less => .inr ⟨same.symm, less⟩
  · exact .inl (.inl higher)

/-- Hits of different files that are in order are strictly so. -/
theorem ranksBefore_of_precedes {first second : Hit} (precedes : first.precedes second = true)
    (different : first.uri ≠ second.uri) :
    RanksBefore (first.uri, first.score) (second.uri, second.score) := by
  refine (precedes_iff_or.1 precedes).imp_right fun ⟨same, less⟩ => ⟨same, bytesOf_lt_iff.2 ?_⟩
  exact String.not_le.1 fun greater => different (String.le_antisymm less greater)

/-! ## The ranking -/

/-- A ranking has the files of a subtree that have a score for a query, each once and each
with its score, by their scores as they are compared. Where one of two scores is below the
bound, this is the order of the scores themselves. -/
structure IsRanking (store : Store) (query base : String) (ranking : List (Entry × Nat)) :
    Prop where
  mem_iff : ∀ entry score, (entry, score) ∈ ranking ↔
    store.entries.get? entry.uri = some entry ∧ entry.isFile = true ∧
      (entry.uri = base ∨ isBelow entry.uri base = true) ∧
      Scored query entry.content score ∧ 0 < score
  once : (ranking.map fun file => file.1.uri).Nodup
  compared : ranking.Pairwise fun first second =>
    RanksBefore (first.1.uri, Binary64.singleRounded first.2)
      (second.1.uri, Binary64.singleRounded second.2)
  ordered : ranking.Pairwise fun first second => first.2 < 16777216 ∨ second.2 < 16777216 →
    RanksBefore (first.1.uri, first.2) (second.1.uri, second.2)

/-- A file with its score, if it has one. -/
def scoredFile (query : String) (entry : Entry) : Option (Entry × Nat) :=
  let score := scoreOf (queryTerms query) (lower entry.content.toList)
  if score = 0 then none else some (entry, score)

/-- The hit of a file with its score. -/
def hitAt (query : String) (file : Entry × Nat) : Hit :=
  ⟨file.1.uri, Binary64.singleRounded file.2, snippetAround file.1.content.toList
    (lower file.1.content.toList) ((queryTerms query).head?.getD [])⟩

theorem hitOf_eq_map (query : String) (entry : Entry) :
    hitOf (queryTerms query) entry = (scoredFile query entry).map (hitAt query) := by
  simp only [hitOf, scoredFile]
  split <;> rfl

theorem scoredFile_eq_some_iff {entry : Entry} {file : Entry × Nat} :
    scoredFile query entry = some file ↔
      file.1 = entry ∧ Scored query entry.content file.2 ∧ 0 < file.2 := by
  rw [scored_iff, scoredFile]
  constructor
  · intro isFile
    obtain ⟨positive, same⟩ := Option.ite_none_left_eq_some.1 isFile
    cases same
    exact ⟨rfl, rfl, Nat.pos_of_ne_zero positive⟩
  · rintro ⟨rfl, scored, positive⟩
    have nonzero : scoreOf (queryTerms query) (lower file.1.content.toList) ≠ 0 := by omega
    rw [if_neg nonzero, scored]

/-- The files of a subtree in the order in which they are found. -/
def ranked (store : Store) (query base : String) : List (Entry × Nat) :=
  ((store.filesWithin base).filterMap (scoredFile query)).mergeSort fun first second =>
    (hitAt query first).precedes (hitAt query second)

theorem mem_ranked_iff (tree : Tree store.entries) {entry : Entry} {score : Nat} :
    (entry, score) ∈ ranked store query base ↔
      store.entries.get? entry.uri = some entry ∧ entry.isFile = true ∧
        (entry.uri = base ∨ isBelow entry.uri base = true) ∧
        Scored query entry.content score ∧ 0 < score := by
  simp only [ranked, List.mem_mergeSort, List.mem_filterMap, scoredFile_eq_some_iff,
    mem_filesWithin_iff tree]
  constructor
  · rintro ⟨file, ⟨stored, isFile, within⟩, rfl, scored⟩
    exact ⟨stored, isFile, within, scored⟩
  · rintro ⟨stored, isFile, within, scored⟩
    exact ⟨entry, ⟨stored, isFile, within⟩, rfl, scored⟩

/-- Every file is ranked once. -/
theorem nodup_ranked (tree : Tree store.entries) :
    ((ranked store query base).map fun file => file.1.uri).Nodup := by
  rw [ranked, ((List.mergeSort_perm _ _).map _).nodup_iff]
  refine List.pairwise_map.2 (List.pairwise_filterMap.2 ?_)
  refine (pairwise_filesWithin tree base).imp
    fun {first second} less file isFile other isOther => ?_
  rw [(scoredFile_eq_some_iff.1 isFile).1, (scoredFile_eq_some_iff.1 isOther).1]
  exact String.ne_of_lt less

theorem pairwise_ranked (tree : Tree store.entries) :
    (ranked store query base).Pairwise fun first second =>
      RanksBefore (first.1.uri, Binary64.singleRounded first.2)
        (second.1.uri, Binary64.singleRounded second.2) := by
  have sorted : (ranked store query base).Pairwise fun first second =>
      (hitAt query first).precedes (hitAt query second) = true := by
    refine List.pairwise_mergeSort (fun first second third => ?_) (fun first second => ?_) _
    · exact precedes_trans
    · exact precedes_total (hitAt query first) (hitAt query second)
  exact sorted.imp₂ (fun _ _ => ranksBefore_of_precedes) (List.pairwise_map.1 (nodup_ranked tree))

theorem isRanking_ranked (tree : Tree store.entries) :
    IsRanking store query base (ranked store query base) where
  mem_iff _ _ := mem_ranked_iff tree
  once := nodup_ranked tree
  compared := pairwise_ranked tree
  ordered := (pairwise_ranked tree).imp fun before => before.of_rounded

/-- What is found are the first hits of the ranking. -/
theorem find_eq_take (normalized : normalize (target.getD scheme) = .ok base)
    (asked : words query.toList ≠ []) (limit : Nat) :
    store.find query target limit =
      .ok (((ranked store query base).map (hitAt query)).take limit) := by
  have sameHits : hitOf (queryTerms query) = fun entry =>
      (scoredFile query entry).map (hitAt query) := funext (hitOf_eq_map query)
  have sameOrder : (ranked store query base).map (hitAt query) =
      (((store.filesWithin base).filterMap (scoredFile query)).map (hitAt query)).mergeSort
        Hit.precedes := List.map_mergeSort fun _ _ _ _ => rfl
  rw [find_eq normalized asked, sameOrder, List.map_filterMap, sameHits]

/-- Every entry lies within the root. -/
theorem within_root (tree : Tree store.entries) {key : String} {entry : Entry}
    (stored : store.entries.get? key = some entry) : isWithin key scheme = true := by
  obtain ⟨trail, rfl⟩ := tree.exists_trail stored
  rw [← Trail.uri_root, Trail.isWithin_uri]
  exact ⟨trail.names, rfl⟩

/-- The ranking of a subtree is what is left of that of the root. -/
theorem ranked_eq_filter (tree : Tree store.entries) (query base : String) :
    ranked store query base =
      (ranked store query scheme).filter fun file => isWithin file.1.uri base := by
  let before : Entry × Nat → Entry × Nat → Prop := fun first second =>
    RanksBefore (first.1.uri, Binary64.singleRounded first.2)
      (second.1.uri, Binary64.singleRounded second.2)
  have irreflexive : Std.Irrefl before := ⟨fun _ => RanksBefore.irreflexive _⟩
  have antisymmetric : Std.Antisymm before :=
    ⟨fun _ _ earlier later => absurd later earlier.asymmetric⟩
  refine List.Pairwise.eq_of_mem_iff (r := before) (pairwise_ranked tree)
    ((pairwise_ranked tree).filter _) fun file => ?_
  rw [List.mem_filter, mem_ranked_iff tree, mem_ranked_iff tree, isWithin_eq_true_iff]
  constructor
  · rintro ⟨stored, isFile, within, scored⟩
    exact ⟨⟨stored, isFile, isWithin_eq_true_iff.1 (within_root tree stored), scored⟩, within⟩
  · rintro ⟨⟨stored, isFile, _, scored⟩, within⟩
    exact ⟨stored, isFile, within, scored⟩

/-- What a query finds in a subtree, for every limit. -/
structure FindsBest (store : Store) (query base : String) (target : Option String) : Prop where
  /-- The hits are the first files of a ranking, each with its rounded score. -/
  best : ∃ ranking, IsRanking store query base ranking ∧
    ∀ limit, ∃ hits, store.find query target limit = .ok hits ∧
      hits.map (fun hit => (hit.uri, hit.score)) =
        (ranking.take limit).map fun file => (file.1.uri, Binary64.singleRounded file.2)
  /-- Rounding changes no score below the bound. -/
  unrounded : ∀ score, score < 16777216 → Binary64.singleRounded score = score
  /-- A greater limit adds hits at the end. -/
  grows : ∀ limit, ∃ fewer more, store.find query target limit = .ok fewer ∧
    store.find query target (limit + 1) = .ok more ∧ fewer <+: more
  /-- The hits are those of the search from the root that lie in the subtree. -/
  filters : ∃ everything : List Hit,
    (∀ limit, store.find query none limit = .ok (everything.take limit)) ∧
    ∀ limit, store.find query target limit =
      .ok ((everything.filter fun hit => isWithin hit.uri base).take limit)

/-- A query that has a word finds the best files in the subtree. -/
theorem find_gives_best (reachable : Reachable store)
    (normalized : normalize (target.getD scheme) = .ok base) (asked : words query.toList ≠ []) :
    FindsBest store query base target where
  best := by
    refine ⟨ranked store query base, isRanking_ranked reachable.sound.tree, fun limit =>
      ⟨_, find_eq_take normalized asked limit, ?_⟩⟩
    rw [← List.map_take, List.map_map]
    rfl
  unrounded _ := Binary64.singleRounded_of_lt
  grows limit := by
    refine ⟨_, _, find_eq_take normalized asked limit,
      find_eq_take normalized asked (limit + 1), ?_⟩
    exact List.take_prefix_take_left (Nat.le_succ limit)
  filters := by
    refine ⟨(ranked store query scheme).map (hitAt query), fun limit => ?_, fun limit => ?_⟩
    · exact find_eq_take rfl asked limit
    · rw [find_eq_take normalized asked, ranked_eq_filter reachable.sound.tree, List.filter_map]
      rfl

/-- A file for each way of being ranked: two with the same score, one with a higher score, one
without a score and one outside the subtree. -/
def bookcase : Store :=
  (empty 0).run [(⟨1, ⟨0⟩⟩, .addResource "viking://d/b" "aaa x"),
    (⟨2, ⟨0⟩⟩, .addResource "viking://d/a" "A, a?"),
    (⟨3, ⟨0⟩⟩, .addResource "viking://d/c" "A aX x"),
    (⟨4, ⟨0⟩⟩, .addResource "viking://d/d" "b"), (⟨5, ⟨0⟩⟩, .addResource "viking://e" "aa aa aa")]

theorem bookcase_is_ranked :
    Reachable bookcase ∧ normalize ((some "viking://d/").getD scheme) = .ok "viking://d" ∧
      words "a aa A".toList ≠ [] ∧
      ((bookcase.filesWithin "viking://d").filterMap (scoredFile "a aa A")).map
          (fun file => (file.1.uri, file.2)) =
        [("viking://d/a", 4), ("viking://d/b", 7), ("viking://d/c", 4)] ∧
      FindsBest bookcase "a aa A" "viking://d" (some "viking://d/") :=
  have reachable : Reachable bookcase := (Reachable.empty 0).run _
  have normalized : normalize ((some "viking://d/").getD scheme) = .ok "viking://d" := rfl
  have asked : words "a aa A".toList ≠ [] := by decide +kernel
  ⟨reachable, normalized, asked, by decide +kernel, find_gives_best reachable normalized asked⟩

end ContextDb.Store
