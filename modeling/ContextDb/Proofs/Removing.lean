import ContextDb.Proofs.Writing

/-!
# Removing

A removal is refused and changes nothing, or it takes away the entry and all that
lies below it. What is left is still a tree, since no entry is left whose
directory is gone.
-/

namespace ContextDb.Store

open Uri

variable {store : Store} {entries : SortedMap Entry} {trail : Trail} {uri : String}

/-- The addresses that a removal takes away. -/
def removed (entries : SortedMap Entry) (target : String) : List String :=
  target :: entries.keys.filter (isBelow · target)

theorem mem_removed_iff {key target : String} :
    key ∈ removed entries target ↔
      key = target ∨ isBelow key target = true ∧ ∃ entry, entries.get? key = some entry := by
  simp [removed, SortedMap.mem_keys_iff, and_comm]

/-- A removal clears the whole subtree and nothing else. -/
theorem get?_foldl_erase_removed (entries : SortedMap Entry) (target key : String) :
    ((removed entries target).foldl SortedMap.erase entries).get? key =
      if isWithin key target then none else entries.get? key := by
  rw [SortedMap.get?_foldl_erase]
  cases found : entries.get? key with
  | none => simp
  | some entry => simp [mem_removed_iff, found]

/-- What the removal of an entry requires. -/
structure CanRemove (store : Store) (target : String) (recursive : Bool) : Prop where
  notRoot : isRoot target = false
  present : ∃ entry, store.entries.get? target = some entry
  /-- Nothing lies below the entry, unless that is to go as well. -/
  bare : recursive = false → ∀ key entry, store.entries.get? key = some entry →
    ¬ Extends key target

/-- The store without an entry and all that lies below it, and without the links from and
to what is gone. -/
def afterRemoval (store : Store) (target : String) : Store :=
  { store with
    entries := (removed store.entries target).foldl SortedMap.erase store.entries
    relations := relationsWithout store.relations (removed store.entries target) }

@[simp] theorem afterRemoval_sessions (store : Store) (target : String) :
    (afterRemoval store target).sessions = store.sessions := rfl

/-- The guard of a removal looks at what lies below the entry. -/
theorem isEmpty_below_iff {target : String} (notRoot : isRoot target = false) :
    (entries.keys.filter (isBelow · target)).isEmpty = true ↔
      ∀ key entry, entries.get? key = some entry → ¬ Extends key target := by
  simp only [List.isEmpty_iff, List.filter_eq_nil_iff, SortedMap.mem_keys_iff,
    isBelow_iff_extends notRoot]
  constructor
  · exact fun bare key entry found => bare key ⟨entry, found⟩
  · rintro bare key ⟨entry, found⟩
    exact bare key entry found

/-- Where the requirements are met, the entry goes with all that lies below it. -/
theorem rm_of_canRemove {target : String} {recursive : Bool}
    (normalized : normalize uri = .ok target) (canRemove : CanRemove store target recursive) :
    store.rm uri recursive =
      (.ok (removed store.entries target), afterRemoval store target) := by
  have present : store.entries.contains target = true := SortedMap.contains_iff.2 canRemove.present
  have allowed :
      (!(store.entries.keys.filter (isBelow · target)).isEmpty && !recursive) = false := by
    cases recursive with
    | true => rw [Bool.not_true, Bool.and_false]
    | false =>
      have bare := (isEmpty_below_iff canRemove.notRoot).2 (canRemove.bare rfl)
      rw [bare, Bool.not_true, Bool.false_and]
  rw [rm, withUri_of_ok normalized]
  simp only [canRemove.notRoot, present, allowed, Bool.not_true, Bool.false_eq_true, if_false]
  rfl

/-- Where they are not, the removal is refused. -/
theorem rm_of_not_canRemove {target : String} {recursive : Bool}
    (normalized : normalize uri = .ok target) (cannot : ¬ CanRemove store target recursive) :
    Refused store (store.rm uri recursive) := by
  rw [rm, withUri_of_ok normalized]
  split
  · exact ⟨_, by simp [Error.code], rfl⟩
  · rename_i notRoot
    split
    · exact ⟨.notFound target, by simp [Error.code], rfl⟩
    · rename_i present
      simp only
      split
      · exact ⟨_, by simp [Error.code], rfl⟩
      · rename_i allowed
        refine absurd ⟨?_, ?_, fun notRecursive => ?_⟩ cannot
        · exact Bool.eq_false_iff.2 notRoot
        · exact SortedMap.contains_iff.1 (by simpa using present)
        · refine (isEmpty_below_iff (Bool.eq_false_iff.2 notRoot)).1 ?_
          simpa [notRecursive] using allowed

/-- A removal is refused, or the entry goes with all that lies below it. -/
theorem rm_cases (store : Store) (uri : String) (recursive : Bool) :
    Refused store (store.rm uri recursive) ∨
      ∃ trail : Trail, normalize uri = .ok trail.uri ∧ CanRemove store trail.uri recursive ∧
        store.rm uri recursive =
          (.ok (removed store.entries trail.uri), afterRemoval store trail.uri) := by
  cases normalized : normalize uri with
  | error error =>
    rw [rm, withUri_of_error normalized]
    exact .inl (refused_of_normalize normalized)
  | ok normal =>
    obtain ⟨trail, rfl⟩ := exists_trail_of_normalize normalized
    by_cases canRemove : CanRemove store trail.uri recursive
    · exact .inr ⟨trail, rfl, canRemove, rm_of_canRemove normalized canRemove⟩
    · exact .inl (rm_of_not_canRemove normalized canRemove)

/-- Taking a subtree away leaves a tree. -/
theorem tree_of_removed (tree : Tree entries) (nonempty : trail.names ≠ [])
    {after : SortedMap Entry}
    (kept : ∀ key, after.get? key = if isWithin key trail.uri then none else entries.get? key) :
    Tree after where
  root := by
    obtain ⟨top, found, isDir⟩ := tree.root
    have outside := Trail.isWithin_uri_eq_false.2 (Trail.not_root_within nonempty)
    rw [Trail.uri_root] at outside
    exact ⟨top, by simp [kept, outside, found], isDir⟩
  fits := by
    intro key entry found
    rw [kept] at found
    split at found
    · cases found
    · exact tree.fits key entry found
  parent := by
    intro key entry above found isParent
    rw [kept] at found
    split at found
    · cases found
    · rename_i outside
      obtain ⟨dir, foundDir, isDir⟩ := tree.parent key entry above found isParent
      obtain ⟨lower, rfl⟩ := tree.exists_trail found
      obtain ⟨upper, rfl⟩ := tree.exists_trail foundDir
      obtain ⟨notRoot, sameUri⟩ := Trail.parent?_uri_eq_some_iff.1 isParent
      have sameParent : lower.parent = upper := Trail.uri_injective sameUri
      have parentOutside : isWithin upper.uri trail.uri = false := by
        refine Trail.isWithin_uri_eq_false.2 fun within => outside (Trail.isWithin_uri.2 ?_)
        exact (sameParent ▸ Trail.below_parent notRoot).within.trans within
      exact ⟨dir, by simp [kept, parentOutside, foundDir], isDir⟩

end ContextDb.Store
