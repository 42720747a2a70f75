import ContextDb.Proofs.SortedMap

/-!
# Giving keys another name

Moving a subtree renames keys one after another inside one map, first in the
entries and then in the links. As long as no new name is a key that is renamed
as well, and no two keys get one name, the order of the renamings does not matter:
every value ends up under its new name.
-/

namespace ContextDb.SortedMap

universe u

variable {α : Type u} {rename : String → String} {change : String → α → α}
  {map : SortedMap α} {keys : List String} {key other : String}

/-- Put the value of a key, changed, under another name. -/
def rekey (rename : String → String) (change : String → α → α) (map : SortedMap α)
    (key : String) : SortedMap α :=
  match map.get? key with
  | some value => (map.erase key).insert (rename key) (change key value)
  | none => map

/-- The new names are all different, none of them is an old one, and all are free. -/
structure Renames (rename : String → String) (keys : List String) (map : SortedMap α) :
    Prop where
  nodup : keys.Nodup
  injective : ∀ first ∈ keys, ∀ second ∈ keys, rename first = rename second → first = second
  apart : ∀ first ∈ keys, ∀ second ∈ keys, rename first ≠ second
  free : ∀ key ∈ keys, map.get? (rename key) = none

theorem get?_rekey_of_ne (notOld : key ≠ other) (notNew : rename key ≠ other) :
    (rekey rename change map key).get? other = map.get? other := by
  unfold rekey
  split
  · simp [notOld, notNew]
  · rfl

theorem get?_rekey_new (free : map.get? (rename key) = none) :
    (rekey rename change map key).get? (rename key) = (map.get? key).map (change key) := by
  unfold rekey
  split
  · rename_i value found
    simp [found]
  · rename_i missing
    simp [missing, free]

theorem get?_rekey_old (apart : rename key ≠ key) :
    (rekey rename change map key).get? key = none := by
  unfold rekey
  split
  · simp [apart]
  · assumption

/-- A key that is neither an old nor a new name keeps its value. -/
theorem get?_foldl_rekey_of_ne (notOld : other ∉ keys) (notNew : ∀ key ∈ keys, rename key ≠ other) :
    (keys.foldl (rekey rename change) map).get? other = map.get? other := by
  induction keys generalizing map with
  | nil => rfl
  | cons first rest inductionHypothesis =>
    have notFirst : first ≠ other := fun same => notOld (same ▸ List.mem_cons_self)
    rw [List.foldl_cons, inductionHypothesis
      (fun member => notOld (List.mem_cons_of_mem _ member))
      (fun key member => notNew key (List.mem_cons_of_mem _ member)),
      get?_rekey_of_ne notFirst (notNew first List.mem_cons_self)]

/-- After the first renaming the others are still as they should be. -/
theorem Renames.rest {first : String} {rest : List String}
    (renames : Renames rename (first :: rest) map) :
    Renames rename rest (rekey rename change map first) where
  nodup := (List.nodup_cons.1 renames.nodup).2
  injective := fun one oneMember two twoMember =>
    renames.injective one (List.mem_cons_of_mem _ oneMember) two (List.mem_cons_of_mem _ twoMember)
  apart := fun one oneMember two twoMember =>
    renames.apart one (List.mem_cons_of_mem _ oneMember) two (List.mem_cons_of_mem _ twoMember)
  free := by
    intro key member
    have inAll := List.mem_cons_of_mem first member
    have notFirst : first ≠ rename key :=
      (renames.apart key inAll first List.mem_cons_self).symm
    have notNew : rename first ≠ rename key := by
      intro same
      have equal := renames.injective first List.mem_cons_self key inAll same
      exact (List.nodup_cons.1 renames.nodup).1 (equal ▸ member)
    rw [get?_rekey_of_ne notFirst notNew, renames.free key inAll]

/-- The value of an old name is under its new name. -/
theorem get?_foldl_rekey_new (renames : Renames rename keys map) (member : key ∈ keys) :
    (keys.foldl (rekey rename change) map).get? (rename key) = (map.get? key).map (change key) := by
  induction keys generalizing map with
  | nil => cases member
  | cons first rest inductionHypothesis =>
    rw [List.foldl_cons]
    rcases List.mem_cons.1 member with rfl | inRest
    · have notOld : rename key ∉ rest := fun inRest =>
        renames.apart key member (rename key) (List.mem_cons_of_mem _ inRest) rfl
      have notNew : ∀ other ∈ rest, rename other ≠ rename key := by
        intro other otherMember same
        have equal := renames.injective other (List.mem_cons_of_mem _ otherMember) key member same
        exact (List.nodup_cons.1 renames.nodup).1 (equal ▸ otherMember)
      rw [get?_foldl_rekey_of_ne notOld notNew, get?_rekey_new (renames.free key member)]
    · have notFirst : first ≠ key := by
        rintro rfl
        exact (List.nodup_cons.1 renames.nodup).1 inRest
      have notNew : rename first ≠ key := renames.apart first List.mem_cons_self key member
      rw [inductionHypothesis renames.rest inRest, get?_rekey_of_ne notFirst notNew]

/-- Nothing is left under an old name. -/
theorem get?_foldl_rekey_old (renames : Renames rename keys map) (member : key ∈ keys) :
    (keys.foldl (rekey rename change) map).get? key = none := by
  induction keys generalizing map with
  | nil => cases member
  | cons first rest inductionHypothesis =>
    rw [List.foldl_cons]
    rcases List.mem_cons.1 member with rfl | inRest
    · have notOld : key ∉ rest := (List.nodup_cons.1 renames.nodup).1
      have notNew : ∀ other ∈ rest, rename other ≠ key := fun other otherMember =>
        renames.apart other (List.mem_cons_of_mem _ otherMember) key member
      rw [get?_foldl_rekey_of_ne notOld notNew,
        get?_rekey_old (renames.apart key member key member)]
    · exact inductionHypothesis renames.rest inRest

end ContextDb.SortedMap
