import ContextDb.Proofs.Rebasing
import ContextDb.Proofs.Rekeying
import ContextDb.Proofs.Writing

/-!
# Moving

A move is refused and changes nothing, or it is possible and takes the whole
subtree along. The steps that rename one key after another are, for the entries
and for the links alike, one simultaneous renaming: the old addresses lie within
the source, the new ones within the destination, and nothing lies in both.
-/

namespace ContextDb.Store

open Uri

variable {α : Type} {store : Store} {entries : SortedMap Entry} {source destination trail : Trail}
  {now : Tick}

/-- A subtree can be moved: it is there, the destination is free, is not inside
the subtree, and no file is above it. -/
structure Movable (entries : SortedMap Entry) (source destination : Trail) : Prop where
  sourceNonempty : source.names ≠ []
  destinationNonempty : destination.names ≠ []
  notBelow : ¬ destination.Below source
  present : ∃ entry, entries.get? source.uri = some entry
  free : entries.get? destination.uri = none
  clear : Clear entries (ancestors destination.uri)

/-- The entries once the directories above the destination are there. -/
def prepared (entries : SortedMap Entry) (destination : Trail) (now : Tick) : SortedMap Entry :=
  withDirs now (ancestors destination.uri) entries

/-- The addresses that a move changes. -/
def moved (entries : SortedMap Entry) (source : String) : List String :=
  entries.keys.filter (isWithin · source)

theorem mem_moved_iff :
    trail.uri ∈ moved entries source.uri ↔
      trail.Within source ∧ ∃ entry, entries.get? trail.uri = some entry := by
  rw [moved, List.mem_filter, SortedMap.mem_keys_iff, Trail.isWithin_uri, and_comm]

namespace Movable

theorem tree_prepared (movable : Movable entries source destination) (tree : Tree entries)
    (now : Tick) : Tree (prepared entries destination now) :=
  tree.withDirs (isChain_ancestors destination) movable.clear

theorem get?_prepared (movable : Movable entries source destination) (key : String) :
    (prepared entries destination now).get? key =
      (entries.get? key).or
        (if key ∈ ancestors destination.uri then some (.newDir key now) else none) :=
  get?_withDirs movable.clear key

/-- A moved address gets the names of the destination in place of the source's. -/
theorem renamed_eq (movable : Movable entries source destination) (within : trail.Within source) :
    renamed source.uri destination.uri trail.uri = (Trail.rebase source destination trail).uri :=
  renamed_uri movable.sourceNonempty movable.destinationNonempty within

/-- Every address becomes that of the rebased trail. -/
theorem grafted_eq (movable : Movable entries source destination) (trail : Trail) :
    grafted source.uri destination.uri trail.uri = (Trail.rebase source destination trail).uri :=
  grafted_uri movable.sourceNonempty movable.destinationNonempty trail

/-- An entry is kept while the directories above the destination are created. -/
theorem get?_prepared_of_found (movable : Movable entries source destination) (now : Tick)
    {key : String} {entry : Entry} (found : entries.get? key = some entry) :
    (prepared entries destination now).get? key = some entry := by
  rw [movable.get?_prepared, found, Option.some_or]

/-- What is above the destination is outside the source. -/
theorem not_within_source (movable : Movable entries source destination)
    (above : destination.Below trail) : ¬ trail.Within source := by
  intro within
  rcases Trail.within_iff.1 within with rfl | below
  · exact movable.notBelow above
  · exact movable.notBelow (above.trans below)

/-- Nothing lies within the destination, neither before nor after its directories
are created. -/
theorem not_within_destination (movable : Movable entries source destination)
    (tree : Tree entries) {entry : Entry}
    (found : (prepared entries destination now).get? trail.uri = some entry) :
    ¬ trail.Within destination := by
  intro within
  rw [movable.get?_prepared] at found
  cases old : entries.get? trail.uri with
  | some existing =>
    rcases Trail.within_iff.1 within with rfl | below
    · rw [movable.free] at old
      cases old
    · have notDir : ∀ dir, entries.get? destination.uri = some dir → dir.isDir = false := by
        simp [movable.free]
      exact tree.not_below notDir old below
  | none =>
    by_cases above : trail.uri ∈ ancestors destination.uri
    · have below := Trail.uri_mem_ancestors_iff.1 above
      rcases Trail.within_iff.1 within with rfl | impossible
      · exact Trail.not_below_self below
      · exact Trail.not_below_self (below.trans impossible)
    · simp [old, above] at found

end Movable

/-! ## One simultaneous renaming -/

theorem moveEntry_eq_rekey (source destination : String) (now : Tick) :
    moveEntry source destination now =
      SortedMap.rekey (renamed source destination) fun key entry =>
        entry.moveTo (renamed source destination key) now := by
  funext entries key
  unfold moveEntry SortedMap.rekey
  split <;> simp_all [Entry.moveTo]

theorem moveLinks_eq_rekey (source destination : String) :
    moveLinks source destination =
      SortedMap.rekey (renamed source destination) fun _ links => links := by
  funext relations key
  unfold moveLinks SortedMap.rekey
  split <;> simp_all

/-- A map after the keys within the source are renamed one after another. -/
def renameAll (source destination : Trail) (change : String → α → α) (keys : List String)
    (map : SortedMap α) : SortedMap α :=
  keys.foldl (SortedMap.rekey (renamed source.uri destination.uri) change) map

namespace Movable

variable {map : SortedMap α} {change : String → α → α}

theorem exists_trail_of_mem_moved (movable : Movable entries source destination)
    (tree : Tree entries) {key : String}
    (member : key ∈ moved (prepared entries destination now) source.uri) :
    ∃ trail : Trail, key = trail.uri ∧ trail.Within source ∧ ¬ trail.Within destination := by
  have inKeys := (List.mem_filter.1 member).1
  obtain ⟨entry, found⟩ := SortedMap.mem_keys_iff.1 inKeys
  obtain ⟨trail, rfl⟩ := (movable.tree_prepared tree now).exists_trail found
  exact ⟨trail, rfl, (mem_moved_iff.1 member).1, movable.not_within_destination tree found⟩

/-- The renamings of a move do not get in each other's way. -/
theorem renames (movable : Movable entries source destination) (tree : Tree entries)
    (covered : Covered map (prepared entries destination now)) :
    SortedMap.Renames (renamed source.uri destination.uri)
      (moved (prepared entries destination now) source.uri) map where
  nodup := (SortedMap.nodup_keys _).filter _
  injective := by
    intro first firstMember second secondMember same
    obtain ⟨one, rfl, oneWithin, oneOutside⟩ := movable.exists_trail_of_mem_moved tree firstMember
    obtain ⟨two, rfl, twoWithin, twoOutside⟩ := movable.exists_trail_of_mem_moved tree secondMember
    rw [movable.renamed_eq oneWithin,
      movable.renamed_eq twoWithin,
      Trail.uri_inj] at same
    rw [Trail.rebase_injective oneOutside twoOutside same]
  apart := by
    intro first firstMember second secondMember same
    obtain ⟨one, rfl, oneWithin, _⟩ := movable.exists_trail_of_mem_moved tree firstMember
    obtain ⟨two, rfl, _, twoOutside⟩ := movable.exists_trail_of_mem_moved tree secondMember
    rw [movable.renamed_eq oneWithin,
      Trail.uri_inj] at same
    exact twoOutside (same ▸ Trail.rebase_within oneWithin)
  free := by
    intro key member
    obtain ⟨trail, rfl, within, _⟩ := movable.exists_trail_of_mem_moved tree member
    rw [movable.renamed_eq within]
    refine Option.eq_none_iff_forall_ne_some.2 fun value found => ?_
    obtain ⟨entry, foundEntry⟩ := covered _ value found
    exact movable.not_within_destination tree foundEntry (Trail.rebase_within within)

/-- After a move, what was kept under an address is kept under its new address. -/
theorem get?_renameAll (movable : Movable entries source destination) (tree : Tree entries)
    (covered : Covered map (prepared entries destination now)) {entry : Entry}
    (found : (prepared entries destination now).get? trail.uri = some entry) :
    (renameAll source destination change (moved (prepared entries destination now) source.uri)
        map).get? (Trail.rebase source destination trail).uri =
      if isWithin trail.uri source.uri then (map.get? trail.uri).map (change trail.uri)
      else map.get? trail.uri := by
  by_cases within : trail.Within source
  · have member := mem_moved_iff.2 ⟨within, entry, found⟩
    rw [if_pos (Trail.isWithin_uri.2 within),
      ← movable.renamed_eq within]
    exact SortedMap.get?_foldl_rekey_new (movable.renames tree covered) member
  · rw [Trail.rebase_of_not_within within, Trail.isWithin_uri_eq_false.2 within]
    refine SortedMap.get?_foldl_rekey_of_ne (fun member => within (mem_moved_iff.1 member).1) ?_
    intro key member same
    obtain ⟨other, rfl, otherWithin, _⟩ := movable.exists_trail_of_mem_moved tree member
    rw [movable.renamed_eq otherWithin,
      Trail.uri_inj] at same
    exact movable.not_within_destination tree found (same ▸ Trail.rebase_within otherWithin)

/-- After a move, nothing is kept but under the new address of an entry. -/
theorem exists_of_get?_renameAll (movable : Movable entries source destination)
    (tree : Tree entries) (covered : Covered map (prepared entries destination now))
    {key : String} {value : α}
    (found : (renameAll source destination change
      (moved (prepared entries destination now) source.uri) map).get? key = some value) :
    ∃ trail : Trail, key = (Trail.rebase source destination trail).uri ∧
      ∃ entry, (prepared entries destination now).get? trail.uri = some entry := by
  have renames := movable.renames tree covered
  by_cases old : key ∈ moved (prepared entries destination now) source.uri
  · rw [renameAll, SortedMap.get?_foldl_rekey_old renames old] at found
    cases found
  · by_cases new : ∃ other ∈ moved (prepared entries destination now) source.uri,
        renamed source.uri destination.uri other = key
    · obtain ⟨other, member, rfl⟩ := new
      obtain ⟨trail, rfl, within, _⟩ := movable.exists_trail_of_mem_moved tree member
      rw [movable.renamed_eq within]
      exact ⟨trail, rfl, (mem_moved_iff.1 member).2⟩
    · have notNew : ∀ other ∈ moved (prepared entries destination now) source.uri,
          renamed source.uri destination.uri other ≠ key :=
        fun other member same => new ⟨other, member, same⟩
      rw [renameAll, SortedMap.get?_foldl_rekey_of_ne old notNew] at found
      obtain ⟨entry, foundEntry⟩ := covered key value found
      obtain ⟨trail, rfl⟩ := (movable.tree_prepared tree now).exists_trail foundEntry
      have outside : ¬ trail.Within source := fun within =>
        old (mem_moved_iff.2 ⟨within, entry, foundEntry⟩)
      exact ⟨trail, by rw [Trail.rebase_of_not_within outside], entry, foundEntry⟩

end Movable

/-! ## The tree after a move -/

/-- The entries after a move. -/
def afterMove (entries : SortedMap Entry) (source destination : Trail) (now : Tick) :
    SortedMap Entry :=
  renameAll source destination
    (fun key entry => entry.moveTo (renamed source.uri destination.uri key) now)
    (moved (prepared entries destination now) source.uri) (prepared entries destination now)

/-- The links after a move. -/
def linksAfterMove (store : Store) (source destination : Trail) (now : Tick) :
    SortedMap (List Relation) :=
  (renameAll source destination (fun _ links => links)
      (moved (prepared store.entries destination now) source.uri) store.relations).mapValues
    (redirect source.uri destination.uri
      (moved (prepared store.entries destination now) source.uri))

theorem foldl_moveEntry (entries : SortedMap Entry) (source destination : Trail) (now : Tick) :
    (moved (prepared entries destination now) source.uri).foldl
        (moveEntry source.uri destination.uri now) (prepared entries destination now) =
      afterMove entries source destination now := by
  rw [moveEntry_eq_rekey]
  rfl

theorem foldl_moveLinks (store : Store) (source destination : Trail) (now : Tick) :
    ((moved (prepared store.entries destination now) source.uri).foldl
        (moveLinks source.uri destination.uri) store.relations).mapValues
          (redirect source.uri destination.uri
            (moved (prepared store.entries destination now) source.uri)) =
      linksAfterMove store source destination now := by
  rw [moveLinks_eq_rekey]
  rfl

/-- What becomes of the entry of a trail when a subtree moves. -/
def relocated (source destination trail : Trail) (now : Tick) (entry : Entry) : Entry :=
  if isWithin trail.uri source.uri then
    entry.moveTo (Trail.rebase source destination trail).uri now
  else entry

@[simp] theorem relocated_isDir (entry : Entry) :
    (relocated source destination trail now entry).isDir = entry.isDir := by
  unfold relocated
  split <;> rfl

namespace Movable

theorem get?_afterMove (movable : Movable entries source destination) (tree : Tree entries)
    {entry : Entry} (found : (prepared entries destination now).get? trail.uri = some entry) :
    (afterMove entries source destination now).get? (Trail.rebase source destination trail).uri =
      some (relocated source destination trail now entry) := by
  rw [afterMove, movable.get?_renameAll tree (covered_self _) found, found]
  by_cases within : trail.Within source
  · simp [relocated, Trail.isWithin_uri.2 within,
      movable.renamed_eq within]
  · simp [relocated, Trail.isWithin_uri_eq_false.2 within]

/-- Every old entry is at its new address after a move. -/
theorem get?_afterMove_grafted (movable : Movable entries source destination)
    (tree : Tree entries) (now : Tick) {old : String} {held : Entry}
    (found : entries.get? old = some held) :
    (afterMove entries source destination now).get? (grafted source.uri destination.uri old) =
      some (if isWithin old source.uri then
          { held with uri := grafted source.uri destination.uri old, updatedAt := now }
        else held) := by
  obtain ⟨trail, rfl⟩ := tree.exists_trail found
  rw [movable.grafted_eq]
  exact movable.get?_afterMove tree (movable.get?_prepared_of_found now found)

/-- The source itself is at the destination after a move. -/
theorem get?_afterMove_destination (movable : Movable entries source destination)
    (tree : Tree entries) (now : Tick) {entry : Entry}
    (found : entries.get? source.uri = some entry) :
    (afterMove entries source destination now).get? destination.uri =
      some (entry.moveTo destination.uri now) := by
  have moves := movable.get?_afterMove_grafted tree now found
  rwa [movable.grafted_eq, Trail.rebase_source,
    if_pos (Trail.isWithin_uri.2 Trail.within_self)] at moves

theorem exists_of_get?_afterMove (movable : Movable entries source destination)
    (tree : Tree entries) {key : String} {result : Entry}
    (found : (afterMove entries source destination now).get? key = some result) :
    ∃ trail : Trail, key = (Trail.rebase source destination trail).uri ∧
      ∃ entry, (prepared entries destination now).get? trail.uri = some entry ∧
        result = relocated source destination trail now entry := by
  obtain ⟨trail, rfl, entry, foundEntry⟩ :=
    movable.exists_of_get?_renameAll tree (covered_self _) found
  rw [movable.get?_afterMove tree foundEntry] at found
  exact ⟨trail, rfl, entry, foundEntry, (Option.some.inj found).symm⟩

/-- The directory of every entry is where the entry's new address says. -/
theorem exists_parent_afterMove (movable : Movable entries source destination)
    (tree : Tree entries) {entry : Entry}
    (found : (prepared entries destination now).get? trail.uri = some entry)
    (nonempty : (Trail.rebase source destination trail).names ≠ []) :
    ∃ dir, (afterMove entries source destination now).get?
      (Trail.rebase source destination trail).parent.uri = some dir ∧ dir.isDir = true := by
  have directory : ∀ {upper : Trail},
      (∃ dir, (prepared entries destination now).get? upper.uri = some dir ∧ dir.isDir = true) →
      ∃ dir, (afterMove entries source destination now).get?
        (Trail.rebase source destination upper).uri = some dir ∧ dir.isDir = true := by
    rintro upper ⟨dir, foundDir, isDir⟩
    exact ⟨_, movable.get?_afterMove tree foundDir, by simpa using isDir⟩
  by_cases within : trail.Within source
  · rcases Trail.within_iff.1 within with rfl | below
    · -- The source itself: its new directory is above the destination.
      have above := Trail.below_parent movable.destinationNonempty
      have moves := directory
        (exists_dir_withDirs movable.clear (Trail.uri_mem_ancestors_iff.2 above))
      rw [Trail.rebase_source]
      rwa [Trail.rebase_of_not_within (movable.not_within_source above)] at moves
    · rw [Trail.rebase_parent below]
      have above := Trail.below_parent below.names_ne_nil
      exact directory ((movable.tree_prepared tree now).above found above)
  · rw [Trail.rebase_of_not_within within] at nonempty ⊢
    have above := Trail.below_parent nonempty
    have moves := directory ((movable.tree_prepared tree now).above found above)
    rwa [Trail.rebase_of_not_within fun parentWithin =>
      within (above.within.trans parentWithin)] at moves

/-- Moving a subtree leaves a tree. -/
theorem tree_afterMove (movable : Movable entries source destination) (tree : Tree entries)
    (now : Tick) : Tree (afterMove entries source destination now) where
  root := by
    obtain ⟨top, found, isDir⟩ := (movable.tree_prepared tree now).root
    rw [← Trail.uri_root] at found ⊢
    have moves := movable.get?_afterMove tree found
    rw [Trail.rebase_of_not_within (Trail.not_root_within movable.sourceNonempty)] at moves
    exact ⟨_, moves, by simpa using isDir⟩
  fits := by
    intro key result found
    obtain ⟨trail, rfl, entry, foundEntry, rfl⟩ := movable.exists_of_get?_afterMove tree found
    have fits := (movable.tree_prepared tree now).fits _ entry foundEntry
    by_cases within : trail.Within source
    · rw [relocated, if_pos (Trail.isWithin_uri.2 within)]
      exact fits.moveTo _
    · rw [relocated, Trail.isWithin_uri_eq_false.2 within, Trail.rebase_of_not_within within]
      exact fits
  parent := by
    intro key result above found isParent
    obtain ⟨trail, rfl, entry, foundEntry, rfl⟩ := movable.exists_of_get?_afterMove tree found
    obtain ⟨nonempty, rfl⟩ := Trail.parent?_uri_eq_some_iff.1 isParent
    exact movable.exists_parent_afterMove tree foundEntry nonempty

end Movable

/-! ## The operation -/

variable {from_ to_ : String}

/-- A possible move gives the moved entry and changes entries and links as described. -/
theorem mv_of_movable (tree : Tree store.entries) (sourceNormal : normalize from_ = .ok source.uri)
    (destinationNormal : normalize to_ = .ok destination.uri)
    (movable : Movable store.entries source destination) (now : Tick) :
    ∃ entry, store.entries.get? source.uri = some entry ∧
      store.mv from_ to_ now = (.ok (entry.moveTo destination.uri now),
        { store with
          entries := afterMove store.entries source destination now
          relations := linksAfterMove store source destination now }) := by
  obtain ⟨entry, present⟩ := movable.present
  have sourceNotRoot : isRoot source.uri = false := by simp [movable.sourceNonempty]
  have destinationNotRoot : isRoot destination.uri = false := by simp [movable.destinationNonempty]
  have notBelow : isBelow destination.uri source.uri = false :=
    Trail.isBelow_uri_eq_false.2 movable.notBelow
  have sourceFound : store.entries.contains source.uri = true :=
    SortedMap.contains_iff.2 ⟨entry, present⟩
  have destinationFree : store.entries.contains destination.uri = false :=
    SortedMap.contains_eq_false_iff.2 movable.free
  have created : ensureDirs now (ancestors destination.uri) store.entries =
      (.ok (), prepared store.entries destination now) :=
    Prod.ext (ensureDirs_eq_ok_iff.2 movable.clear) rfl
  have arrived := movable.get?_afterMove_destination tree now present
  have sameMoved : (prepared store.entries destination now).keys.filter
      (fun key => key = source.uri || isBelow key source.uri) =
      moved (prepared store.entries destination now) source.uri := rfl
  refine ⟨entry, present, ?_⟩
  rw [mv, withUri_of_ok sourceNormal, withUri_of_ok destinationNormal]
  simp only [sourceNotRoot, destinationNotRoot, notBelow, sourceFound, destinationFree, created,
    Bool.or_self, Bool.not_true, Bool.false_eq_true, if_false, sameMoved, foldl_moveEntry,
    foldl_moveLinks, arrived]

/-- A move that is not possible is refused. -/
theorem mv_of_not_movable (tree : Tree store.entries)
    (sourceNormal : normalize from_ = .ok source.uri)
    (destinationNormal : normalize to_ = .ok destination.uri)
    (notMovable : ¬ Movable store.entries source destination) (now : Tick) :
    Refused store (store.mv from_ to_ now) := by
  rw [mv, withUri_of_ok sourceNormal, withUri_of_ok destinationNormal]
  simp only [Trail.isRoot_uri]
  by_cases atRoot : source.names = [] ∨ destination.names = []
  · have eitherRoot : (decide (source.names = []) || decide (destination.names = [])) = true := by
      simpa using atRoot
    simp only [eitherRoot, if_true]
    exact ⟨_, by simp [Error.code], rfl⟩
  · obtain ⟨sourceNonempty, destinationNonempty⟩ := not_or.1 atRoot
    simp only [sourceNonempty, destinationNonempty, decide_false, Bool.or_self,
      Bool.false_eq_true, if_false]
    cases below : isBelow destination.uri source.uri with
    | true => exact ⟨_, by simp [Error.code], rfl⟩
    | false =>
      cases sourceFound : store.entries.contains source.uri with
      | false => exact ⟨.notFound source.uri, by simp [Error.code], rfl⟩
      | true =>
        cases destinationFree : store.entries.contains destination.uri with
        | true => exact ⟨.alreadyExists destination.uri, by simp [Error.code], rfl⟩
        | false =>
          rcases tree.ensureDirs_cases (isChain_ancestors destination) now with
            ⟨_, dir, failed⟩ | ⟨clear, _⟩
          · simp only [failed, Bool.not_true, Bool.false_eq_true, if_false]
            exact ⟨_, by simp [Error.code], rfl⟩
          · exact absurd ⟨sourceNonempty, destinationNonempty,
              Trail.isBelow_uri_eq_false.1 below, SortedMap.contains_iff.1 sourceFound,
              SortedMap.contains_eq_false_iff.1 destinationFree, clear⟩ notMovable

/-- A move is refused, or it is possible and done. -/
theorem mv_cases (tree : Tree store.entries) (from_ to_ : String) (now : Tick) :
    Refused store (store.mv from_ to_ now) ∨
      ∃ source destination : Trail, normalize from_ = .ok source.uri ∧
        normalize to_ = .ok destination.uri ∧ Movable store.entries source destination ∧
        ∃ entry, store.entries.get? source.uri = some entry ∧
          store.mv from_ to_ now = (.ok (entry.moveTo destination.uri now),
            { store with
              entries := afterMove store.entries source destination now
              relations := linksAfterMove store source destination now }) := by
  cases sourceNormal : normalize from_ with
  | error error =>
    rw [mv, withUri_of_error sourceNormal]
    exact .inl (refused_of_normalize sourceNormal)
  | ok sourceUri =>
    cases destinationNormal : normalize to_ with
    | error error =>
      rw [mv, withUri_of_ok sourceNormal, withUri_of_error destinationNormal]
      exact .inl (refused_of_normalize destinationNormal)
    | ok destinationUri =>
      obtain ⟨source, rfl⟩ := exists_trail_of_normalize sourceNormal
      obtain ⟨destination, rfl⟩ := exists_trail_of_normalize destinationNormal
      by_cases movable : Movable store.entries source destination
      · exact .inr ⟨source, destination, rfl, rfl, movable,
          mv_of_movable tree sourceNormal destinationNormal movable now⟩
      · exact .inl (mv_of_not_movable tree sourceNormal destinationNormal movable now)

end ContextDb.Store
