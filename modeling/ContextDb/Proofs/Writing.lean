import ContextDb.Proofs.Tree

/-!
# Writing and making directories

Either of the two is refused and changes nothing, or it creates the missing
directories and puts one entry in its place. In both cases the tree stays one,
and no entry is lost.
-/

namespace ContextDb.Store

open Uri

variable {α : Type} {store : Store} {entries : SortedMap Entry} {trail : Trail}
  {uri content : String} {now : Tick}

theorem withUri_of_error {error : Error} (refused : normalize uri = .error error)
    (continue_ : String → Outcome α) : store.withUri uri continue_ = (.error error, store) := by
  simp [withUri, refused]

theorem withUri_of_ok {normal : String} (normalized : normalize uri = .ok normal)
    (continue_ : String → Outcome α) : store.withUri uri continue_ = continue_ normal := by
  simp [withUri, normalized]

/-- An operation is refused: it fails, not for an internal reason, and leaves the
store as it is. -/
def Refused (store : Store) (outcome : Outcome α) : Prop :=
  ∃ error, error.code ≠ .internal ∧ outcome = (.error error, store)

theorem refused_of_normalize {error : Error} (failed : normalize uri = .error error) :
    Refused store ((.error error, store) : Outcome α) := by
  obtain ⟨reason, rfl⟩ := exists_invalidUri_of_normalize failed
  exact ⟨_, by simp [Error.code], rfl⟩

/-- The entry that a write leaves at its address. -/
def written (entries : SortedMap Entry) (target content : String) (now : Tick) : Entry :=
  match entries.get? target with
  | some existing => existing.withContent content now
  | none => .newFile target content now

/-- The written entry fits its address, provided no directory is there. -/
theorem fits_written (tree : Tree entries)
    (notDir : ∀ existing, entries.get? trail.uri = some existing → existing.isDir = false) :
    (written entries trail.uri content now).Fits trail.uri := by
  unfold written
  split
  · rename_i existing found
    have isFile : existing.isFile = true := by
      simp [Entry.isFile_eq_not_isDir, notDir existing found]
    exact (tree.fits _ existing found).withContent isFile
  · exact .newFile trail content now

/-- Creating the ancestors of an entry leaves the entry's own place alone. -/
theorem get?_withDirs_ancestors (clear : Clear entries (ancestors trail.uri)) :
    (withDirs now (ancestors trail.uri) entries).get? trail.uri = entries.get? trail.uri := by
  have notAncestor : trail.uri ∉ ancestors trail.uri := fun member =>
    Trail.not_below_self (Trail.uri_mem_ancestors_iff.1 member)
  simp [get?_withDirs clear, notAncestor]

/-- What a write does to the entries if it succeeds. -/
def afterWrite (entries : SortedMap Entry) (target content : String) (now : Tick) :
    SortedMap Entry :=
  (withDirs now (ancestors target) entries).insert target (written entries target content now)

/-- Only the normal form of the address counts. -/
theorem addResource_of_normalize (normalized : normalize uri = .ok trail.uri) (content : String)
    (now : Tick) : store.addResource uri content now = store.addResource trail.uri content now := by
  simp only [addResource, withUri_of_ok normalized, withUri_of_ok (normalize_uri trail)]

/-- A write to a place other than the root puts the file there if no file is above it
and no directory at it. -/
theorem addResource_of_clear (tree : Tree store.entries) (nonempty : trail.names ≠ [])
    (clear : Clear store.entries (ancestors trail.uri))
    (notDir : ∀ existing, store.entries.get? trail.uri = some existing → existing.isDir = false)
    (content : String) (now : Tick) :
    store.addResource trail.uri content now =
      (.ok (written store.entries trail.uri content now),
        { store with entries := afterWrite store.entries trail.uri content now }) := by
  have notRoot : isRoot trail.uri = false := by simp [nonempty]
  simp only [addResource, withUri_of_ok (normalize_uri trail), notRoot, Bool.false_eq_true,
    if_false]
  rcases tree.ensureDirs_cases (isChain_ancestors trail) now with ⟨notClear, _⟩ | ⟨_, created⟩
  · exact absurd clear notClear
  · cases found : store.entries.get? trail.uri with
    | none => simp only [created, get?_withDirs_ancestors clear, found, afterWrite, written]
    | some existing =>
      simp [created, get?_withDirs_ancestors clear, found, notDir existing found, afterWrite,
        written]

/-- A write fails for the file that is above its address. -/
theorem addResource_of_file_above (tree : Tree store.entries) (nonempty : trail.names ≠ [])
    {error : Error} (failed : (ensureDirs now (ancestors trail.uri) store.entries).1 = .error error)
    (content : String) : store.addResource trail.uri content now = (.error error, store) := by
  have notRoot : isRoot trail.uri = false := by simp [nonempty]
  have inTheWay : ensureDirs now (ancestors trail.uri) store.entries =
      (.error error, store.entries) :=
    Prod.ext failed (tree.ensureDirs_snd_of_error (isChain_ancestors trail) failed)
  simp only [addResource, withUri_of_ok (normalize_uri trail), notRoot, Bool.false_eq_true,
    if_false, inTheWay]

/-- A write fails for the directory that is at its address; nothing was missing above it. -/
theorem addResource_of_dir (tree : Tree store.entries) (nonempty : trail.names ≠ [])
    {dir : Entry} (found : store.entries.get? trail.uri = some dir) (isDir : dir.isDir = true)
    (content : String) (now : Tick) : store.addResource trail.uri content now =
      (.error (.alreadyExists (trail.uri ++ " is a directory")), store) := by
  have notRoot : isRoot trail.uri = false := by simp [nonempty]
  simp only [addResource, withUri_of_ok (normalize_uri trail), notRoot, Bool.false_eq_true,
    if_false, tree.ensureDirs_of_found found now, found, isDir, if_true]

/-- A write to a place other than the root finds something in its way, or puts the
file there. -/
theorem addResource_uri_cases (tree : Tree store.entries) (nonempty : trail.names ≠ [])
    (content : String) (now : Tick) :
    (∃ what, store.addResource trail.uri content now = (.error (.alreadyExists what), store)) ∨
    (Clear store.entries (ancestors trail.uri) ∧
      (∀ existing, store.entries.get? trail.uri = some existing → existing.isDir = false) ∧
      store.addResource trail.uri content now =
        (.ok (written store.entries trail.uri content now),
          { store with entries := afterWrite store.entries trail.uri content now })) := by
  cases created : (ensureDirs now (ancestors trail.uri) store.entries).1 with
  | error error =>
    obtain ⟨file, _, rfl⟩ := exists_of_ensureDirs_eq_error created
    exact .inl ⟨_, addResource_of_file_above tree nonempty created content⟩
  | ok done =>
    have clear := ensureDirs_eq_ok_iff.1 created
    by_cases dirThere :
        ∃ existing, store.entries.get? trail.uri = some existing ∧ existing.isDir = true
    · obtain ⟨existing, found, isDir⟩ := dirThere
      exact .inl ⟨_, addResource_of_dir tree nonempty found isDir content now⟩
    · have notDir : ∀ existing, store.entries.get? trail.uri = some existing →
          existing.isDir = false := fun existing found =>
        Bool.eq_false_iff.2 fun isDir => dirThere ⟨existing, found, isDir⟩
      exact .inr ⟨clear, notDir, addResource_of_clear tree nonempty clear notDir content now⟩

/-- A write is refused, or no file is above its address, no directory is at it,
and the file is there afterwards. -/
theorem addResource_cases (tree : Tree store.entries) (uri content : String) (now : Tick) :
    Refused store (store.addResource uri content now) ∨
      ∃ trail : Trail, trail.names ≠ [] ∧ normalize uri = .ok trail.uri ∧
        Clear store.entries (ancestors trail.uri) ∧
        (∀ existing, store.entries.get? trail.uri = some existing → existing.isDir = false) ∧
        store.addResource uri content now =
          (.ok (written store.entries trail.uri content now),
            { store with entries := afterWrite store.entries trail.uri content now }) := by
  cases normalized : normalize uri with
  | error error =>
    rw [addResource, withUri_of_error normalized]
    exact .inl (refused_of_normalize normalized)
  | ok normal =>
    obtain ⟨trail, rfl⟩ := exists_trail_of_normalize normalized
    rw [addResource_of_normalize normalized]
    by_cases atRoot : trail.names = []
    · have isRoot : isRoot trail.uri = true := by simp [atRoot]
      simp only [addResource, withUri_of_ok (normalize_uri trail), isRoot, if_true]
      exact .inl ⟨_, by simp [Error.code], rfl⟩
    · rcases addResource_uri_cases tree atRoot content now with
        ⟨what, failed⟩ | ⟨clear, notDir, wrote⟩
      · exact .inl ⟨_, by simp [Error.code], failed⟩
      · exact .inr ⟨trail, atRoot, rfl, clear, notDir, wrote⟩

/-- The tree after a write is a tree. -/
theorem tree_afterWrite (tree : Tree entries) (nonempty : trail.names ≠ [])
    (clear : Clear entries (ancestors trail.uri))
    (notDir : ∀ existing, entries.get? trail.uri = some existing → existing.isDir = false)
    (content : String) (now : Tick) : Tree (afterWrite entries trail.uri content now) := by
  have isChain := isChain_ancestors trail
  refine (tree.withDirs isChain clear).insert nonempty (fits_written tree notDir) ?_ ?_
  · exact exists_dir_withDirs clear (Trail.uri_mem_ancestors_iff.2 (Trail.below_parent nonempty))
  · rw [get?_withDirs_ancestors clear]
    exact notDir

/-- Where no file is at or above an address, the directory is there after it has been
made. -/
theorem mkdir_of_clear (tree : Tree store.entries) (normalized : normalize uri = .ok trail.uri)
    (clear : Clear store.entries (ancestors trail.uri ++ [trail.uri])) (now : Tick) :
    ∃ dir, (withDirs now (ancestors trail.uri ++ [trail.uri]) store.entries).get? trail.uri =
        some dir ∧ store.mkdir uri now =
      (.ok dir, { store with
        entries := withDirs now (ancestors trail.uri ++ [trail.uri]) store.entries }) := by
  rcases tree.ensureDirs_cases (isChain_ancestors_append trail) now with
    ⟨notClear, _⟩ | ⟨_, created⟩
  · exact absurd clear notClear
  · obtain ⟨dir, found, _⟩ :=
      exists_dir_withDirs clear (List.mem_append_right _ List.mem_cons_self)
    refine ⟨dir, found, ?_⟩
    rw [mkdir, withUri_of_ok normalized]
    simp only [created, found]

/-- Making a directory is refused, or no file is at or above its address, and the
directory is there afterwards. -/
theorem mkdir_cases (tree : Tree store.entries) (uri : String) (now : Tick) :
    Refused store (store.mkdir uri now) ∨
      ∃ trail : Trail, normalize uri = .ok trail.uri ∧
        Clear store.entries (ancestors trail.uri ++ [trail.uri]) ∧
        ∃ dir, (withDirs now (ancestors trail.uri ++ [trail.uri]) store.entries).get? trail.uri =
            some dir ∧ store.mkdir uri now =
          (.ok dir, { store with
            entries := withDirs now (ancestors trail.uri ++ [trail.uri]) store.entries }) := by
  cases normalized : normalize uri with
  | error error =>
    rw [mkdir, withUri_of_error normalized]
    exact .inl (refused_of_normalize normalized)
  | ok normal =>
    obtain ⟨trail, rfl⟩ := exists_trail_of_normalize normalized
    rcases tree.ensureDirs_cases (isChain_ancestors_append trail) now with
      ⟨_, dir, failed⟩ | ⟨clear, _⟩
    · rw [mkdir, withUri_of_ok normalized, failed]
      exact .inl ⟨_, by simp [Error.code], rfl⟩
    · exact .inr ⟨trail, rfl, clear, mkdir_of_clear tree normalized clear now⟩

/-! ## Growing -/

variable {before after : Store}

/-- Every key of a map is the address of an entry. -/
def Covered (map : SortedMap α) (entries : SortedMap Entry) : Prop :=
  ∀ key value, map.get? key = some value → ∃ entry, entries.get? key = some entry

theorem covered_self (entries : SortedMap Entry) : Covered entries entries :=
  fun _ entry found => ⟨entry, found⟩

theorem Covered.trans {map : SortedMap α} {middle entries : SortedMap Entry}
    (first : Covered map middle) (second : Covered middle entries) : Covered map entries := by
  intro key value found
  obtain ⟨entry, foundEntry⟩ := first key value found
  exact second key entry foundEntry

/-- A store came from another one by additions to the tree. -/
structure Grown (before after : Store) : Prop where
  tree : Tree after.entries
  covered : Covered before.entries after.entries
  relations : after.relations = before.relations
  sessions : after.sessions = before.sessions

theorem Grown.refl (tree : Tree store.entries) : Grown store store :=
  ⟨tree, covered_self _, rfl, rfl⟩

theorem Grown.trans (first : Grown before store) (second : Grown store after) :
    Grown before after where
  tree := second.tree
  covered := first.covered.trans second.covered
  relations := second.relations.trans first.relations
  sessions := second.sessions.trans first.sessions

theorem Refused.grown {outcome : Outcome α} (refused : Refused store outcome)
    (tree : Tree store.entries) : Grown store outcome.2 := by
  obtain ⟨_, _, rfl⟩ := refused
  exact .refl tree

theorem covered_withDirs {entries : SortedMap Entry} {chain : List String}
    (clear : Clear entries chain) : Covered entries (withDirs now chain entries) := by
  intro key entry found
  exact ⟨entry, by simp [get?_withDirs clear, found]⟩

/-- A write only adds to the tree. -/
theorem grown_addResource (tree : Tree store.entries) (uri content : String) (now : Tick) :
    Grown store (store.addResource uri content now).2 := by
  rcases addResource_cases tree uri content now with
    refused | ⟨trail, nonempty, _, clear, notDir, wrote⟩
  · exact refused.grown tree
  · rw [wrote]
    refine ⟨tree_afterWrite tree nonempty clear notDir content now, ?_, rfl, rfl⟩
    intro key entry found
    simp only [afterWrite, SortedMap.get?_insert]
    split
    · exact ⟨_, rfl⟩
    · exact covered_withDirs clear key entry found

/-- Making a directory only adds to the tree. -/
theorem grown_mkdir (tree : Tree store.entries) (uri : String) (now : Tick) :
    Grown store (store.mkdir uri now).2 := by
  rcases mkdir_cases tree uri now with refused | ⟨trail, _, clear, dir, _, made⟩
  · exact refused.grown tree
  · rw [made]
    exact ⟨tree.withDirs (isChain_ancestors_append trail) clear, covered_withDirs clear, rfl, rfl⟩

end ContextDb.Store
