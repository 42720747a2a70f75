import ContextDb.SortedMap
import Mathlib.Data.List.Nodup

/-!
# Looking up in sorted maps

What `get?` answers after each operation on a map. The representation is opened
here only; everything about the store is proved through these equations.
-/

namespace ContextDb.SortedMap

universe u v

variable {α : Type u} {β : Type v}

/-- What is alone in a list with its key is found by it. -/
theorem find?_eq_some_of_unique {κ : Type v} [DecidableEq κ] {key : α → κ} {list : List α}
    {entry : α} (member : entry ∈ list)
    (unique : ∀ other ∈ list, key other = key entry → other = entry) :
    list.find? (key · = key entry) = some entry := by
  have inhabited : (list.find? (key · = key entry)).isSome :=
    List.find?_isSome.2 ⟨entry, member, decide_eq_true rfl⟩
  obtain ⟨other, found⟩ := Option.isSome_iff_exists.1 inhabited
  have sameKey := List.find?_some found
  rw [found, unique other (List.mem_of_find?_eq_some found) (of_decide_eq_true sameKey)]

/-- The look-up in raw associations that `get?` performs. -/
def lookup (key : String) (list : List (String × α)) : Option α :=
  (list.find? (·.1 = key)).map (·.2)

theorem lookup_nil (key : String) : lookup key ([] : List (String × α)) = none := rfl

theorem lookup_cons (key : String) (pair : String × α) (rest : List (String × α)) :
    lookup key (pair :: rest) = if pair.1 = key then some pair.2 else lookup key rest := by
  by_cases same : pair.1 = key <;> simp [lookup, same]

/-- Placing an association answers its own key and leaves every other one alone. -/
theorem lookup_place (key other : String) (value : α) (list : List (String × α)) :
    lookup other (place key value list) =
      if key = other then some value else lookup other list := by
  induction list with
  | nil => simp [place, lookup_cons, lookup_nil]
  | cons head rest inductionHypothesis =>
    obtain ⟨k, held⟩ := head
    simp only [place]
    split
    · simp only [lookup_cons]
    · split
      · rename_i same
        subst same
        by_cases own : key = other <;> simp [lookup_cons, own]
      · rename_i different
        simp only [lookup_cons, inductionHypothesis]
        by_cases first : k = other
        · have notOwn : key ≠ other := fun own => different (own.trans first.symm)
          simp [first, notOwn]
        · simp [first]

/-- A key that is below all others in a list is not found there. -/
theorem lookup_eq_none_of_below {key : String} {list : List (String × α)}
    (below : ∀ pair ∈ list, key < pair.1) : lookup key list = none := by
  have absent : list.find? (·.1 = key) = none := by
    refine List.find?_eq_none.2 fun pair member => ?_
    have different : pair.1 ≠ key := fun same =>
      String.lt_irrefl key (same ▸ below pair member)
    simpa using different
  simp [lookup, absent]

/-- In sorted associations a filter acts on the one association of a key. -/
theorem lookup_filter (keep : String → α → Bool) (key : String) {list : List (String × α)}
    (sorted : list.Pairwise fun first second => first.1 < second.1) :
    lookup key (list.filter fun pair => keep pair.1 pair.2) =
      (lookup key list).filter (keep key) := by
  induction list with
  | nil => rfl
  | cons head rest inductionHypothesis =>
    obtain ⟨k, held⟩ := head
    have above := (List.pairwise_cons.1 sorted).1
    have inRest := inductionHypothesis (List.pairwise_cons.1 sorted).2
    by_cases same : k = key
    · subst same
      have restNone : lookup k rest = none := lookup_eq_none_of_below above
      by_cases kept : keep k held
      · simp [kept, lookup_cons, Option.filter_some]
      · rw [restNone] at inRest
        simpa [kept, lookup_cons, Option.filter_some] using inRest
    · by_cases kept : keep k held
      · simpa [kept, lookup_cons, same] using inRest
      · simpa [kept, lookup_cons, same] using inRest

/-- A sorted list holds an association exactly when look-up finds it. -/
theorem mem_iff_lookup {key : String} {value : α} {list : List (String × α)}
    (sorted : list.Pairwise fun first second => first.1 < second.1) :
    (key, value) ∈ list ↔ lookup key list = some value := by
  induction list with
  | nil => simp [lookup_nil]
  | cons head rest inductionHypothesis =>
    obtain ⟨k, held⟩ := head
    have above := (List.pairwise_cons.1 sorted).1
    have inRest := inductionHypothesis (List.pairwise_cons.1 sorted).2
    by_cases same : k = key
    · subst same
      have notInRest : (k, value) ∉ rest := fun member =>
        String.lt_irrefl k (above _ member)
      simp [lookup_cons, notInRest, eq_comm]
    · have different : (key, value) ≠ (k, held) := fun equal =>
        same (congrArg Prod.fst equal).symm
      simp [lookup_cons, same, different, inRest]

theorem get?_eq_lookup (map : SortedMap α) (key : String) :
    map.get? key = lookup key map.toList := rfl

@[simp] theorem get?_empty (key : String) : (empty : SortedMap α).get? key = none := rfl

@[simp] theorem get?_single (key other : String) (value : α) :
    (single key value).get? other = if key = other then some value else none := by
  simp [get?_eq_lookup, single, lookup_cons, lookup_nil]

@[simp] theorem get?_insert (map : SortedMap α) (key other : String) (value : α) :
    (map.insert key value).get? other = if key = other then some value else map.get? other :=
  lookup_place key other value map.toList

@[simp] theorem get?_filter (map : SortedMap α) (keep : String → α → Bool) (key : String) :
    (map.filter keep).get? key = (map.get? key).filter (keep key) :=
  lookup_filter keep key map.sorted

@[simp] theorem get?_erase (map : SortedMap α) (key other : String) :
    (map.erase key).get? other = if key = other then none else map.get? other := by
  rw [erase, get?_filter]
  by_cases same : key = other
  · subst same
    cases map.get? key <;> simp
  · have kept : (other != key) = true := by simpa using Ne.symm same
    cases map.get? other <;> simp [same, kept]

@[simp] theorem get?_mapValues (map : SortedMap α) (change : α → β) (key : String) :
    (map.mapValues change).get? key = (map.get? key).map change := by
  obtain ⟨list, sorted⟩ := map
  simp only [get?_eq_lookup, mapValues]
  clear sorted
  induction list with
  | nil => rfl
  | cons head rest inductionHypothesis =>
    by_cases same : head.1 = key <;> simp [lookup_cons, same, inductionHypothesis]

/-- A key is present exactly when it has a value. -/
theorem contains_iff {map : SortedMap α} {key : String} :
    map.contains key = true ↔ ∃ value, map.get? key = some value :=
  Option.isSome_iff_exists

/-- A key is absent exactly when look-up answers nothing. -/
theorem contains_eq_false_iff {map : SortedMap α} {key : String} :
    map.contains key = false ↔ map.get? key = none := by
  simp [contains]

/-- The listed associations are those that look-up answers. -/
theorem mem_toList_iff {map : SortedMap α} {key : String} {value : α} :
    (key, value) ∈ map.toList ↔ map.get? key = some value :=
  mem_iff_lookup map.sorted

/-- The listed keys are those that have a value. -/
theorem mem_keys_iff {map : SortedMap α} {key : String} :
    key ∈ map.keys ↔ ∃ value, map.get? key = some value := by
  simp only [keys, List.mem_map, Prod.exists, exists_and_right, exists_eq_right, mem_toList_iff]

/-- Of several associations of a key, the last one counts. -/
theorem get?_ofList (pairs : List (String × α)) (key : String) :
    (ofList pairs).get? key = (pairs.reverse.find? (·.1 = key)).map (·.2) := by
  suffices ∀ map : SortedMap α,
      (pairs.foldl (fun map pair => map.insert pair.1 pair.2) map).get? key =
        ((pairs.reverse.find? (·.1 = key)).map (·.2)).or (map.get? key) by
    simpa [ofList] using this empty
  intro map
  induction pairs generalizing map with
  | nil => simp
  | cons pair others inductionHypothesis =>
    rw [List.foldl_cons, inductionHypothesis, List.reverse_cons, List.find?_append, get?_insert]
    cases List.find? (·.1 = key) others.reverse with
    | some found => simp
    | none => by_cases same : pair.1 = key <;> simp [same]

/-- What a key has comes from the list. -/
theorem mem_of_get?_ofList {pairs : List (String × α)} {key : String} {value : α}
    (found : (ofList pairs).get? key = some value) : (key, value) ∈ pairs := by
  rw [get?_ofList] at found
  obtain ⟨pair, isPair, rfl⟩ := Option.map_eq_some_iff.1 found
  have same : pair.1 = key := by simpa using List.find?_some isPair
  subst same
  exact List.mem_reverse.1 (List.mem_of_find?_eq_some isPair)

/-- A key has the value that all its associations agree on. -/
theorem get?_ofList_of_agreeing {pairs : List (String × α)} {key : String} {value : α}
    (present : (key, value) ∈ pairs) (agreeing : ∀ other, (key, other) ∈ pairs → other = value) :
    (ofList pairs).get? key = some value := by
  cases found : (ofList pairs).get? key with
  | some other => rw [agreeing other (mem_of_get?_ofList found)]
  | none =>
    rw [get?_ofList, Option.map_eq_none_iff, List.find?_eq_none] at found
    exact absurd (found (key, value) (List.mem_reverse.2 present)) (by simp)

/-- Where no key stands twice in a list, look-up answers what the list has. -/
theorem get?_ofList_iff {pairs : List (String × α)} (distinct : (pairs.map (·.1)).Nodup)
    {key : String} {value : α} : (ofList pairs).get? key = some value ↔ (key, value) ∈ pairs := by
  refine ⟨mem_of_get?_ofList, fun present => get?_ofList_of_agreeing present fun other member => ?_⟩
  exact congrArg Prod.snd (List.inj_on_of_nodup_map distinct member present rfl)

/-- No key is listed twice. -/
theorem nodup_keys (map : SortedMap α) : map.keys.Nodup := by
  refine List.Pairwise.map _ (fun first second below => ?_) map.sorted
  exact fun same => String.lt_irrefl _ (same ▸ below)

/-- Erasing several keys leaves the others alone. -/
theorem get?_foldl_erase (keys : List String) (map : SortedMap α) (key : String) :
    (keys.foldl erase map).get? key = if key ∈ keys then none else map.get? key := by
  induction keys generalizing map with
  | nil => simp
  | cons first rest inductionHypothesis =>
    simp only [List.foldl_cons, inductionHypothesis, get?_erase, List.mem_cons]
    by_cases later : key ∈ rest
    · simp [later]
    · by_cases same : first = key
      · simp [same]
      · simp [later, same, Ne.symm same]

end ContextDb.SortedMap
