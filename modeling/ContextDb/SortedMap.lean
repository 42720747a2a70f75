/-!
# Maps in key order

A finite map from strings whose associations are kept in strictly increasing
order of their keys. Two maps that answer every look-up alike are therefore the
same map, and every listing of one is in byte order of its keys.
-/

namespace ContextDb

universe u v

/-- A finite map from strings, as its associations in increasing key order. -/
structure SortedMap (α : Type u) where
  toList : List (String × α)
  sorted : toList.Pairwise fun first second => first.1 < second.1

namespace SortedMap

variable {α : Type u} {β : Type v}

/-- Associations with a key set to a value, in their place in key order. -/
def place (key : String) (value : α) : List (String × α) → List (String × α)
  | [] => [(key, value)]
  | (k, held) :: rest =>
    if key < k then (key, value) :: (k, held) :: rest
    else if key = k then (key, value) :: rest
    else (k, held) :: place key value rest

/-- Placing adds nothing but the association itself. -/
theorem mem_place {key : String} {value : α} {pair : String × α} {list : List (String × α)}
    (member : pair ∈ place key value list) : pair = (key, value) ∨ pair ∈ list := by
  induction list with
  | nil => simpa [place] using member
  | cons head rest inductionHypothesis =>
    obtain ⟨k, held⟩ := head
    simp only [place] at member
    split at member
    · simpa using member
    · split at member
      · rcases List.mem_cons.1 member with same | inRest
        · exact .inl same
        · exact .inr (List.mem_cons_of_mem _ inRest)
      · rcases List.mem_cons.1 member with same | inRest
        · exact .inr (same ▸ List.mem_cons_self)
        · exact (inductionHypothesis inRest).imp_right (List.mem_cons_of_mem _)

/-- Placing an association keeps the order. -/
theorem sorted_place (key : String) (value : α) {list : List (String × α)}
    (sorted : list.Pairwise fun first second => first.1 < second.1) :
    (place key value list).Pairwise fun first second => first.1 < second.1 := by
  induction list with
  | nil => simp [place]
  | cons head rest inductionHypothesis =>
    obtain ⟨k, held⟩ := head
    have above := (List.pairwise_cons.1 sorted).1
    have rest_sorted := (List.pairwise_cons.1 sorted).2
    simp only [place]
    split
    · rename_i below
      refine List.pairwise_cons.2 ⟨fun pair member => ?_, sorted⟩
      rcases List.mem_cons.1 member with same | inRest
      · exact same ▸ below
      · exact String.lt_trans below (above pair inRest)
    · split
      · rename_i same
        exact List.pairwise_cons.2 ⟨fun pair member => same ▸ above pair member, rest_sorted⟩
      · rename_i notBelow notSame
        refine List.pairwise_cons.2 ⟨fun pair member => ?_, inductionHypothesis rest_sorted⟩
        rcases mem_place member with same | inRest
        · subst same
          exact String.not_le.1 fun le =>
            notSame (String.le_antisymm le (String.not_lt.1 notBelow))
        · exact above pair inRest

/-- The map without associations. -/
def empty : SortedMap α :=
  ⟨[], .nil⟩

/-- The map with one association. -/
def single (key : String) (value : α) : SortedMap α :=
  ⟨[(key, value)], List.pairwise_singleton _ _⟩

/-- The value of a key. -/
def get? (map : SortedMap α) (key : String) : Option α :=
  (map.toList.find? (·.1 = key)).map (·.2)

/-- Whether a key has a value. -/
def contains (map : SortedMap α) (key : String) : Bool :=
  (map.get? key).isSome

/-- The keys in increasing order. -/
def keys (map : SortedMap α) : List String :=
  map.toList.map (·.1)

/-- The values in the order of their keys. -/
def values (map : SortedMap α) : List α :=
  map.toList.map (·.2)

/-- The number of associations. -/
def size (map : SortedMap α) : Nat :=
  map.toList.length

/-- Give a key a value, replacing the one it has. -/
def insert (map : SortedMap α) (key : String) (value : α) : SortedMap α :=
  ⟨place key value map.toList, sorted_place key value map.sorted⟩

/-- The associations that satisfy a condition. -/
def filter (keep : String → α → Bool) (map : SortedMap α) : SortedMap α :=
  ⟨map.toList.filter fun pair => keep pair.1 pair.2, map.sorted.filter _⟩

/-- The map without a key. -/
def erase (map : SortedMap α) (key : String) : SortedMap α :=
  map.filter fun k _ => k != key

/-- The map with a function applied to every value. -/
def mapValues (change : α → β) (map : SortedMap α) : SortedMap β :=
  ⟨map.toList.map fun pair => (pair.1, change pair.2),
    List.Pairwise.map _ (fun _ _ below => below) map.sorted⟩

/-- The map of a list of associations, where the last one for a key counts. -/
def ofList (pairs : List (String × α)) : SortedMap α :=
  pairs.foldl (fun map pair => map.insert pair.1 pair.2) empty

end SortedMap

end ContextDb
