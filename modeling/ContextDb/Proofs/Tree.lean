import ContextDb.Proofs.SortedMap
import ContextDb.Proofs.Trail
import ContextDb.Store.Tree

/-!
# The shape of the tree

`Tree` is what holds of the entries of a store at all times. The central fact is
that whatever lies above an entry is a directory: it makes the creation of
directories atomic, and it keeps everything below a file and below a free
address empty.
-/

namespace ContextDb

open Uri

/-- What holds of every single entry and the address it is kept under. -/
structure Entry.Fits (key : String) (entry : Entry) : Prop where
  /-- The address is its own normal form. -/
  normal : normalize key = .ok key
  /-- The entry knows the address. -/
  keyed : entry.uri = key
  /-- Directories have no content. -/
  dirEmpty : entry.isDir = true → entry.content = "" ∧ entry.size = 0
  /-- The size of a file is that of its content in bytes. -/
  fileSize : entry.isFile = true → entry.size = entry.content.utf8ByteSize

/-- What holds of the entries of a store at all times. -/
structure Tree (entries : SortedMap Entry) : Prop where
  /-- The root is there, and it is a directory. -/
  root : ∃ top, entries.get? scheme = some top ∧ top.isDir = true
  /-- Every entry fits its address. -/
  fits : ∀ key entry, entries.get? key = some entry → entry.Fits key
  /-- Every entry but the root lies in a directory. -/
  parent : ∀ key entry above, entries.get? key = some entry → parent? key = some above →
    ∃ dir, entries.get? above = some dir ∧ dir.isDir = true

theorem Entry.isFile_eq_not_isDir (entry : Entry) : entry.isFile = !entry.isDir := by
  cases kind : entry.kind <;> simp [isFile, isDir, kind]

namespace Entry.Fits

variable {key uri content : String} {entry : Entry} {now : Tick}

theorem exists_trail (fits : entry.Fits key) : ∃ trail : Trail, key = trail.uri :=
  exists_trail_of_normalize fits.normal

/-- A new directory fits the address it is made for. -/
theorem newDir (trail : Trail) (now : Tick) : (Entry.newDir trail.uri now).Fits trail.uri where
  normal := normalize_uri trail
  keyed := rfl
  dirEmpty := fun _ => ⟨rfl, rfl⟩
  fileSize := by simp [Entry.newDir, isFile]

/-- A new file fits the address it is made for. -/
theorem newFile (trail : Trail) (content : String) (now : Tick) :
    (Entry.newFile trail.uri content now).Fits trail.uri where
  normal := normalize_uri trail
  keyed := rfl
  dirEmpty := by simp [Entry.newFile, isDir]
  fileSize := fun _ => rfl

/-- A file fits its address with any content. -/
theorem withContent (fits : entry.Fits key) (file : entry.isFile = true) :
    (entry.withContent content now).Fits key where
  normal := fits.normal
  keyed := fits.keyed
  dirEmpty := by
    intro dir
    have sameKind : (entry.withContent content now).isDir = entry.isDir := rfl
    rw [isFile_eq_not_isDir, ← sameKind, dir] at file
    cases file
  fileSize := fun _ => rfl

/-- An entry that moves to a normal address fits it. -/
theorem moveTo (fits : entry.Fits key) (trail : Trail) :
    (entry.moveTo trail.uri now).Fits trail.uri where
  normal := normalize_uri trail
  keyed := rfl
  dirEmpty := fits.dirEmpty
  fileSize := fits.fileSize

end Entry.Fits

namespace Tree

variable {entries : SortedMap Entry} {lower upper trail : Trail} {entry : Entry} {key : String}

theorem exists_trail (tree : Tree entries) (found : entries.get? key = some entry) :
    ∃ trail : Trail, key = trail.uri :=
  (tree.fits key entry found).exists_trail

/-- An entry knows the address it is kept under. -/
theorem keyed (tree : Tree entries) (found : entries.get? key = some entry) : entry.uri = key :=
  (tree.fits key entry found).keyed

/-- Whatever lies above an entry is a directory. -/
theorem above (tree : Tree entries) (found : entries.get? lower.uri = some entry)
    (below : lower.Below upper) :
    ∃ dir, entries.get? upper.uri = some dir ∧ dir.isDir = true := by
  -- Going up one step at a time, by induction on how many steps there are.
  generalize steps : lower.names.length = count
  induction count using Nat.strongRecOn generalizing lower entry with
  | ind count inductionHypothesis =>
    have nonempty := below.names_ne_nil
    obtain ⟨dir, foundDir, isDir⟩ :=
      tree.parent lower.uri entry lower.parent.uri found (Trail.parent?_uri nonempty)
    rcases below.eq_parent_or with rfl | parentBelow
    · exact ⟨dir, foundDir, isDir⟩
    · have shorter := (Trail.below_parent nonempty).length_lt
      exact inductionHypothesis _ (steps ▸ shorter) foundDir parentBelow rfl

/-- Nothing lies below a file or below a free address. -/
theorem not_below (tree : Tree entries)
    (notDir : ∀ dir, entries.get? upper.uri = some dir → dir.isDir = false)
    (found : entries.get? lower.uri = some entry) : ¬ lower.Below upper := by
  intro below
  obtain ⟨dir, foundDir, isDir⟩ := tree.above found below
  rw [notDir dir foundDir] at isDir
  cases isDir

/-- A directory can take in an entry at an address where no directory is. -/
theorem insert (tree : Tree entries) (nonempty : trail.names ≠ [])
    (fits : entry.Fits trail.uri)
    (inDir : ∃ dir, entries.get? trail.parent.uri = some dir ∧ dir.isDir = true)
    (notDir : ∀ dir, entries.get? trail.uri = some dir → dir.isDir = false) :
    Tree (entries.insert trail.uri entry) where
  root := by
    have notRoot : trail.uri ≠ scheme := fun same => nonempty (Trail.uri_eq_scheme_iff.1 same)
    obtain ⟨top, found, isDir⟩ := tree.root
    exact ⟨top, by simpa [notRoot] using found, isDir⟩
  fits := by
    intro key held found
    rw [SortedMap.get?_insert] at found
    split at found
    · rename_i same
      cases found
      exact same ▸ fits
    · exact tree.fits key held found
  parent := by
    intro key held above found isParent
    have oldParent : ∃ dir, entries.get? above = some dir ∧ dir.isDir = true := by
      rw [SortedMap.get?_insert] at found
      split at found
      · rename_i same
        subst same
        rw [Trail.parent?_uri nonempty] at isParent
        cases isParent
        exact inDir
      · exact tree.parent key held above found isParent
    obtain ⟨dir, foundDir, isDir⟩ := oldParent
    have elsewhere : trail.uri ≠ above := by
      rintro rfl
      rw [notDir dir foundDir] at isDir
      cases isDir
    exact ⟨dir, by simpa [elsewhere] using foundDir, isDir⟩

end Tree

/-! ## Creating directories -/

namespace Store

/-- Addresses from the root down that leave out no directory on the way. -/
structure IsChain (chain : List String) : Prop where
  spelled : ∀ dir ∈ chain, ∃ trail : Trail, dir = trail.uri
  closed : ∀ lower upper : Trail, lower.uri ∈ chain → lower.Below upper → upper.uri ∈ chain
  ordered : chain.Pairwise fun upper lower => isBelow lower upper = true

/-- The ancestors of an entry are such a chain. -/
theorem isChain_ancestors (trail : Trail) : IsChain (ancestors trail.uri) where
  spelled := by
    intro dir member
    obtain ⟨upper, _, rfl⟩ := Trail.mem_ancestors_iff.1 member
    exact ⟨upper, rfl⟩
  closed := by
    intro lower upper member below
    exact Trail.uri_mem_ancestors_iff.2 ((Trail.uri_mem_ancestors_iff.1 member).trans below)
  ordered := Trail.pairwise_ancestors trail

/-- The ancestors of an entry and the entry itself are such a chain. -/
theorem isChain_ancestors_append (trail : Trail) :
    IsChain (ancestors trail.uri ++ [trail.uri]) where
  spelled := by
    intro dir member
    rcases List.mem_append.1 member with above | self
    · exact (isChain_ancestors trail).spelled dir above
    · exact ⟨trail, List.mem_singleton.1 self⟩
  closed := by
    intro lower upper member below
    refine List.mem_append_left _ (Trail.uri_mem_ancestors_iff.2 ?_)
    rcases List.mem_append.1 member with above | self
    · exact (Trail.uri_mem_ancestors_iff.1 above).trans below
    · exact Trail.uri_injective (List.mem_singleton.1 self) ▸ below
  ordered := by
    refine List.pairwise_append.2 ⟨Trail.pairwise_ancestors trail, List.pairwise_singleton _ _, ?_⟩
    intro ancestor above self member
    obtain ⟨upper, below, rfl⟩ := Trail.mem_ancestors_iff.1 above
    rw [List.mem_singleton.1 member]
    exact Trail.isBelow_uri.2 below

/-- No file stands in the way of a chain of directories. -/
def Clear (entries : SortedMap Entry) (chain : List String) : Prop :=
  ∀ dir ∈ chain, ∀ existing, entries.get? dir = some existing → existing.isDir = true

/-- The entries after the creation of a chain of directories. -/
def withDirs (now : Tick) (chain : List String) (entries : SortedMap Entry) : SortedMap Entry :=
  (ensureDirs now chain entries).2

variable {entries : SortedMap Entry} {chain : List String} {now : Tick}

theorem clear_cons_iff {dir : String} {deeper : List String} :
    Clear entries (dir :: deeper) ↔
      (∀ existing, entries.get? dir = some existing → existing.isDir = true) ∧
        Clear entries deeper := by
  simp [Clear]

/-- A directory more makes no chain less clear. -/
theorem clear_insert_newDir_iff {dir : String} (free : entries.get? dir = none) :
    Clear (entries.insert dir (.newDir dir now)) chain ↔ Clear entries chain := by
  refine forall_congr' fun other => imp_congr_right fun _ => forall_congr' fun existing => ?_
  rw [SortedMap.get?_insert]
  by_cases same : dir = other
  · subst same
    have isDir : (Entry.newDir dir now).isDir = true := rfl
    simp only [if_true, Option.some.injEq, free]
    constructor
    · intro _ impossible
      cases impossible
    · rintro _ rfl
      exact isDir
  · simp [same]

/-- Creation succeeds exactly when no file is in the way. -/
theorem ensureDirs_eq_ok_iff :
    (ensureDirs now chain entries).1 = .ok () ↔ Clear entries chain := by
  induction chain generalizing entries with
  | nil => simp [ensureDirs, Clear]
  | cons dir deeper inductionHypothesis =>
    rw [clear_cons_iff]
    cases found : entries.get? dir with
    | none => simp [ensureDirs, found, inductionHypothesis, clear_insert_newDir_iff found]
    | some existing =>
      cases isDir : existing.isDir <;>
        simp [ensureDirs, found, Entry.isFile_eq_not_isDir, isDir, inductionHypothesis]

/-- A failure names the file in the way. -/
theorem exists_of_ensureDirs_eq_error {error : Error}
    (failed : (ensureDirs now chain entries).1 = .error error) :
    ∃ dir ∈ chain, error = .alreadyExists (dir ++ " is a file") := by
  induction chain generalizing entries with
  | nil => cases failed
  | cons dir deeper inductionHypothesis =>
    simp only [ensureDirs] at failed
    split at failed
    · split at failed
      · exact ⟨dir, List.mem_cons_self, (Except.error.inj failed).symm⟩
      · obtain ⟨file, member, named⟩ := inductionHypothesis failed
        exact ⟨file, List.mem_cons_of_mem _ member, named⟩
    · obtain ⟨file, member, named⟩ := inductionHypothesis failed
      exact ⟨file, List.mem_cons_of_mem _ member, named⟩

/-- Creation adds the directories of the chain that are missing, and nothing else. -/
theorem get?_withDirs (clear : Clear entries chain) (key : String) :
    (withDirs now chain entries).get? key =
      (entries.get? key).or (if key ∈ chain then some (.newDir key now) else none) := by
  induction chain generalizing entries with
  | nil => simp [withDirs, ensureDirs]
  | cons dir deeper inductionHypothesis =>
    obtain ⟨clearHere, clearDeeper⟩ := clear_cons_iff.1 clear
    cases found : entries.get? dir with
    | none =>
      have clearAfter : Clear (entries.insert dir (.newDir dir now)) deeper :=
        (clear_insert_newDir_iff found).2 clearDeeper
      have rest := inductionHypothesis clearAfter
      simp only [withDirs, ensureDirs, found] at rest ⊢
      rw [rest, SortedMap.get?_insert]
      by_cases same : dir = key
      · subst same
        simp [found]
      · simp [same, Ne.symm same]
    | some existing =>
      have rest := inductionHypothesis clearDeeper
      have notFile : existing.isFile = false := by
        simp [Entry.isFile_eq_not_isDir, clearHere existing found]
      simp only [withDirs, ensureDirs, found, notFile] at rest ⊢
      simp only [Bool.false_eq_true, if_false]
      rw [rest]
      by_cases same : dir = key
      · subst same
        simp [found]
      · simp [Ne.symm same]

/-- After the creation, every address of the chain is that of a directory. -/
theorem exists_dir_withDirs (clear : Clear entries chain) {key : String} (member : key ∈ chain) :
    ∃ dir, (withDirs now chain entries).get? key = some dir ∧ dir.isDir = true := by
  rw [get?_withDirs clear]
  cases found : entries.get? key with
  | none => exact ⟨.newDir key now, by simp [member], rfl⟩
  | some dir => exact ⟨dir, by simp, clear key member dir found⟩

/-- Where all directories of the chain are there, nothing is created. -/
theorem ensureDirs_of_present
    (present : ∀ dir ∈ chain, ∃ existing, entries.get? dir = some existing ∧
      existing.isDir = true) :
    ensureDirs now chain entries = (.ok (), entries) := by
  induction chain with
  | nil => rfl
  | cons dir deeper inductionHypothesis =>
    obtain ⟨existing, found, isDir⟩ := present dir List.mem_cons_self
    have rest := inductionHypothesis fun other member =>
      present other (List.mem_cons_of_mem _ member)
    simp [ensureDirs, found, Entry.isFile_eq_not_isDir, isDir, rest]

end Store

namespace Tree

open Store

variable {entries : SortedMap Entry} {chain : List String} {now : Tick}

/-- Where an entry of a chain is missing, so is everything the chain lists after it. -/
theorem free_of_free (tree : Tree entries) (isChain : IsChain chain) :
    chain.Pairwise fun upper lower => entries.get? upper = none → entries.get? lower = none := by
  refine isChain.ordered.imp_of_mem ?_
  intro upper lower upperMember lowerMember below free
  obtain ⟨upperTrail, rfl⟩ := isChain.spelled upper upperMember
  obtain ⟨lowerTrail, rfl⟩ := isChain.spelled lower lowerMember
  refine Option.eq_none_iff_forall_ne_some.2 fun entry found => ?_
  obtain ⟨dir, foundDir, _⟩ := tree.above found (Trail.isBelow_uri.1 below)
  rw [free] at foundDir
  cases foundDir

/-- A failed creation has created nothing: by the shape of the tree, everything
above the file in the way is there already. -/
theorem ensureDirs_snd_of_error (tree : Tree entries) (isChain : IsChain chain) {error : Error}
    (failed : (ensureDirs now chain entries).1 = .error error) :
    (ensureDirs now chain entries).2 = entries := by
  have freeBelow := tree.free_of_free isChain
  clear isChain
  induction chain with
  | nil => rfl
  | cons dir deeper inductionHypothesis =>
    obtain ⟨freeBelowDir, freeBelowDeeper⟩ := List.pairwise_cons.1 freeBelow
    cases found : entries.get? dir with
    | none =>
      -- All of the chain is free, so no file can be in the way.
      have clear : Clear entries (dir :: deeper) := by
        intro other member existing foundOther
        have free : entries.get? other = none := by
          rcases List.mem_cons.1 member with rfl | inDeeper
          · exact found
          · exact freeBelowDir other inDeeper found
        rw [free] at foundOther
        cases foundOther
      rw [ensureDirs_eq_ok_iff.2 clear] at failed
      cases failed
    | some existing =>
      cases isFile : existing.isFile with
      | true => simp [ensureDirs, found, isFile]
      | false =>
        simp only [ensureDirs, found, isFile, Bool.false_eq_true, if_false] at failed ⊢
        exact inductionHypothesis failed freeBelowDeeper

/-- Creation along a chain fails as a whole or creates the whole chain. -/
theorem ensureDirs_cases (tree : Tree entries) (isChain : IsChain chain) (now : Tick) :
    (¬ Clear entries chain ∧ ∃ dir, ensureDirs now chain entries =
      (.error (.alreadyExists (dir ++ " is a file")), entries)) ∨
    (Clear entries chain ∧ ensureDirs now chain entries =
      (.ok (), Store.withDirs now chain entries)) := by
  cases result : (ensureDirs now chain entries).1 with
  | error error =>
    have notClear : ¬ Clear entries chain := by
      intro clear
      rw [ensureDirs_eq_ok_iff.2 clear] at result
      cases result
    obtain ⟨dir, _, rfl⟩ := exists_of_ensureDirs_eq_error result
    exact .inl ⟨notClear, dir, Prod.ext result (tree.ensureDirs_snd_of_error isChain result)⟩
  | ok done => exact .inr ⟨ensureDirs_eq_ok_iff.1 result, Prod.ext result rfl⟩

/-- Above an entry that is there, no directory is missing. -/
theorem ensureDirs_of_found (tree : Tree entries) {trail : Trail} {entry : Entry}
    (found : entries.get? trail.uri = some entry) (now : Tick) :
    Store.ensureDirs now (ancestors trail.uri) entries = (.ok (), entries) := by
  refine ensureDirs_of_present fun dir member => ?_
  obtain ⟨upper, below, rfl⟩ := Trail.mem_ancestors_iff.1 member
  exact tree.above found below

/-- Creating directories along a clear chain keeps the tree. -/
theorem withDirs (tree : Tree entries) (isChain : IsChain chain) (clear : Clear entries chain) :
    Tree (withDirs now chain entries) where
  root := by
    obtain ⟨top, found, isDir⟩ := tree.root
    exact ⟨top, by simp [get?_withDirs clear, found], isDir⟩
  fits := by
    intro key entry found
    rw [get?_withDirs clear] at found
    cases old : entries.get? key with
    | some existing =>
      rw [old] at found
      cases found
      exact tree.fits key entry old
    | none =>
      rw [old, Option.none_or] at found
      split at found
      · rename_i member
        obtain ⟨trail, rfl⟩ := isChain.spelled key member
        cases found
        exact .newDir trail now
      · cases found
  parent := by
    intro key entry above found isParent
    rw [get?_withDirs clear] at found
    cases old : entries.get? key with
    | some existing =>
      obtain ⟨dir, foundDir, isDir⟩ := tree.parent key existing above old isParent
      exact ⟨dir, by simp [get?_withDirs clear, foundDir], isDir⟩
    | none =>
      have member : key ∈ chain := by
        by_cases member : key ∈ chain
        · exact member
        · simp [old, member] at found
      obtain ⟨trail, rfl⟩ := isChain.spelled key member
      obtain ⟨nonempty, rfl⟩ := Trail.parent?_uri_eq_some_iff.1 isParent
      exact exists_dir_withDirs clear
        (isChain.closed trail trail.parent member (Trail.below_parent nonempty))

end Tree

end ContextDb
