import ContextDb.Proofs.Obstacles

/-!
# What writing adds

What writing a file and making a directory require and what they do, said once more without
the steps they take: the entry is there afterwards, so are the directories on the way to it
that were missing, and nothing else has changed.
-/

namespace ContextDb.Store

open Uri

/-- An address is that of a directory on the way to another one. -/
structure IsAncestor (above uri : String) : Prop where
  normal : normalize above = .ok above
  isBelow : isBelow uri above = true

/-- What writing a file requires: a place other than the root that admits a file. -/
structure CanWrite (store : Store) (target : String) : Prop where
  notRoot : isRoot target = false
  admits : Admits store.entries target

/-- What making a directory requires: what is there at the place or above it are
directories. -/
def CanMakeDir (store : Store) (target : String) : Prop :=
  ∀ key existing, store.entries.get? key = some existing → isWithin target key = true →
    existing.isDir = true

/-- One store is another one with an entry at an address, and with the directories on the
way to it. -/
structure IsPlanted (before after : Store) (target : String) (entry : Entry) (now : Tick) :
    Prop where
  here : after.entries.get? target = some entry
  /-- Where a directory was missing on the way, there is a new one. -/
  above : ∀ key, IsAncestor key target → before.entries.get? key = none →
    after.entries.get? key = some (.newDir key now)
  /-- Everywhere else is what was there, if anything was. -/
  elsewhere : ∀ key, key ≠ target →
    (IsAncestor key target → ∃ existing, before.entries.get? key = some existing) →
    after.entries.get? key = before.entries.get? key
  relations : after.relations = before.relations
  sessions : after.sessions = before.sessions

variable {store : Store} {entries : SortedMap Entry} {trail : Trail} {uri content : String}
  {now : Tick}

/-- The chain of directories that is created on the way to an entry has no other members
than the addresses above it. -/
theorem mem_ancestors_iff_isAncestor {above : String} :
    above ∈ ancestors trail.uri ↔ IsAncestor above trail.uri := by
  rw [Trail.mem_ancestors_iff]
  constructor
  · rintro ⟨upper, below, rfl⟩
    exact ⟨normalize_uri upper, Trail.isBelow_uri.2 below⟩
  · rintro ⟨normal, below⟩
    obtain ⟨upper, rfl⟩ := exists_trail_of_normalize normal
    exact ⟨upper, Trail.isBelow_uri.1 below, rfl⟩

/-- An entry and the missing ones of the directories on the way to it are what is planted. -/
theorem isPlanted_of_get? {after : SortedMap Entry} {entry : Entry}
    (lookUp : ∀ key, after.get? key = if trail.uri = key then some entry
      else (store.entries.get? key).or
        (if key ∈ ancestors trail.uri then some (.newDir key now) else none)) :
    IsPlanted store { store with entries := after } trail.uri entry now where
  here := by
    show after.get? trail.uri = some entry
    rw [lookUp, if_pos rfl]
  above := by
    intro key isAncestor missing
    have member := mem_ancestors_iff_isAncestor.2 isAncestor
    have different : trail.uri ≠ key := by
      rintro rfl
      exact Trail.not_below_self (Trail.isBelow_uri.1 isAncestor.isBelow)
    show after.get? key = some (.newDir key now)
    rw [lookUp, if_neg different, missing, Option.none_or, if_pos member]
  elsewhere := by
    intro key different present
    show after.get? key = store.entries.get? key
    rw [lookUp, if_neg (Ne.symm different)]
    by_cases member : key ∈ ancestors trail.uri
    · obtain ⟨existing, found⟩ := present (mem_ancestors_iff_isAncestor.1 member)
      rw [found, Option.some_or]
    · rw [if_neg member, Option.or_none]
  relations := rfl
  sessions := rfl

/-! ## Files -/

/-- What a write leaves at its address is a file with the content, as old as the one that
was there. -/
theorem written_eq (tree : Tree entries)
    (notDir : ∀ existing, entries.get? trail.uri = some existing → existing.isDir = false)
    (content : String) (now : Tick) :
    written entries trail.uri content now =
      ⟨trail.uri, .file, content, content.utf8ByteSize,
        ((entries.get? trail.uri).map (·.createdAt)).getD now, now⟩ := by
  unfold written
  cases found : entries.get? trail.uri with
  | none => rfl
  | some existing =>
    have keyed := tree.keyed found
    have isFile : existing.kind = .file := by
      simpa [Entry.isFile, Entry.isFile_eq_not_isDir, notDir existing found] using
        existing.isFile_eq_not_isDir
    simp [Entry.withContent, keyed, isFile]

/-- A file is read at whatever spelling of its address. -/
theorem read_of_file {spelling target : String} {entry : Entry}
    (normalized : normalize spelling = .ok target)
    (found : store.entries.get? target = some entry) (notDir : entry.isDir = false) :
    store.read spelling = .ok entry.content := by
  rw [read, normalized]
  simp [bind, Except.bind, entryAt, found, notDir, pure, Except.pure]

/-- A write succeeds exactly if its requirements are met. -/
theorem addResource_eq_ok_iff (tree : Tree store.entries) :
    (∃ entry, (store.addResource uri content now).1 = .ok entry) ↔
      ∃ target, normalize uri = .ok target ∧ CanWrite store target := by
  constructor
  · rintro ⟨entry, gave⟩
    rcases addResource_cases tree uri content now with
      ⟨_, _, refused⟩ | ⟨trail, nonempty, normalized, clear, notDir, _⟩
    · rw [refused] at gave
      cases gave
    · exact ⟨trail.uri, normalized, by simp [nonempty], (admits_uri_iff tree).2 ⟨clear, notDir⟩⟩
  · rintro ⟨target, normalized, notRoot, admits⟩
    obtain ⟨trail, rfl⟩ := exists_trail_of_normalize normalized
    obtain ⟨clear, notDir⟩ := (admits_uri_iff tree).1 admits
    have nonempty : trail.names ≠ [] := by simpa using notRoot
    refine ⟨written store.entries trail.uri content now, ?_⟩
    rw [addResource_of_normalize normalized, addResource_of_clear tree nonempty clear notDir]

/-- A write that succeeds adds the file, which can be read then. -/
theorem isPlanted_of_addResource (tree : Tree store.entries) {entry : Entry}
    (gave : (store.addResource uri content now).1 = .ok entry) :
    ∃ target, normalize uri = .ok target ∧
      entry = ⟨target, .file, content, content.utf8ByteSize,
        ((store.entries.get? target).map (·.createdAt)).getD now, now⟩ ∧
      IsPlanted store (store.addResource uri content now).2 target entry now ∧
      ∀ spelling, normalize spelling = .ok target →
        (store.addResource uri content now).2.read spelling = .ok content := by
  rcases addResource_cases tree uri content now with
    ⟨_, _, refused⟩ | ⟨trail, nonempty, normalized, clear, notDir, wrote⟩
  · rw [refused] at gave
    cases gave
  · rw [wrote] at gave ⊢
    cases gave
    have planted := isPlanted_of_get? (get?_afterWrite clear content now)
    have same := written_eq tree notDir content now
    refine ⟨trail.uri, normalized, same, planted, fun spelling spelled => ?_⟩
    rw [read_of_file spelled planted.here (isDir_written notDir content now), same]

/-! ## Directories -/

theorem canMakeDir_iff (tree : Tree store.entries) :
    CanMakeDir store trail.uri ↔ Clear store.entries (ancestors trail.uri ++ [trail.uri]) := by
  constructor
  · intro canMake dir member existing found
    rw [List.mem_append, Trail.mem_ancestors_iff, List.mem_singleton] at member
    rcases member with ⟨upper, below, rfl⟩ | rfl
    · exact canMake upper.uri existing found (Trail.isWithin_uri.2 below.within)
    · exact canMake trail.uri existing found (Trail.isWithin_uri.2 Trail.within_self)
  · intro clear key existing found within
    obtain ⟨upper, rfl⟩ := tree.exists_trail found
    refine clear upper.uri (List.mem_append.2 ?_) existing found
    rcases Trail.within_iff.1 (Trail.isWithin_uri.1 within) with rfl | below
    · exact .inr List.mem_cons_self
    · exact .inl (Trail.uri_mem_ancestors_iff.2 below)

/-- Making a directory that is there gives it and changes nothing. -/
theorem mkdir_of_found (store : Store) (tree : Tree store.entries) {spelling : String}
    {dir : Entry} (normalized : normalize spelling = .ok trail.uri)
    (found : store.entries.get? trail.uri = some dir) (isDir : dir.isDir = true) (now : Tick) :
    store.mkdir spelling now = (.ok dir, store) := by
  have present : ensureDirs now (ancestors trail.uri ++ [trail.uri]) store.entries =
      (.ok (), store.entries) := by
    refine ensureDirs_of_present fun above member => ?_
    rw [List.mem_append, Trail.mem_ancestors_iff, List.mem_singleton] at member
    rcases member with ⟨upper, below, rfl⟩ | rfl
    · exact tree.above found below
    · exact ⟨dir, found, isDir⟩
  rw [mkdir, withUri_of_ok normalized]
  simp only [present, found]

/-- Making a directory succeeds exactly if its requirement is met. -/
theorem mkdir_eq_ok_iff (tree : Tree store.entries) :
    (∃ dir, (store.mkdir uri now).1 = .ok dir) ↔
      ∃ target, normalize uri = .ok target ∧ CanMakeDir store target := by
  constructor
  · rintro ⟨dir, gave⟩
    rcases mkdir_cases tree uri now with ⟨_, _, refused⟩ | ⟨trail, normalized, clear, _⟩
    · rw [refused] at gave
      cases gave
    · exact ⟨trail.uri, normalized, (canMakeDir_iff tree).2 clear⟩
  · rintro ⟨target, normalized, canMake⟩
    obtain ⟨trail, rfl⟩ := exists_trail_of_normalize normalized
    obtain ⟨dir, _, made⟩ := mkdir_of_clear tree normalized ((canMakeDir_iff tree).1 canMake) now
    exact ⟨dir, by rw [made]⟩

/-- Creating the missing directories down to an address plants the last of them. -/
theorem isPlanted_withDirs {dir : Entry}
    (clear : Clear store.entries (ancestors trail.uri ++ [trail.uri]))
    (found : (withDirs now (ancestors trail.uri ++ [trail.uri]) store.entries).get? trail.uri =
      some dir) :
    IsPlanted store
      { store with entries := withDirs now (ancestors trail.uri ++ [trail.uri]) store.entries }
      trail.uri dir now := by
  refine isPlanted_of_get? fun key => ?_
  by_cases here : trail.uri = key
  · subst here
    rw [if_pos rfl, found]
  · rw [if_neg here, get?_withDirs clear]
    simp [Ne.symm here]

/-- Making a directory adds it unless it is there; making it once more does nothing. -/
theorem isPlanted_of_mkdir (tree : Tree store.entries) {dir : Entry}
    (gave : (store.mkdir uri now).1 = .ok dir) :
    ∃ target, normalize uri = .ok target ∧ dir.isDir = true ∧
      dir = (store.entries.get? target).getD (.newDir target now) ∧
      IsPlanted store (store.mkdir uri now).2 target dir now ∧
      ∀ spelling later, normalize spelling = .ok target →
        (store.mkdir uri now).2.mkdir spelling later = (.ok dir, (store.mkdir uri now).2) := by
  rcases mkdir_cases tree uri now with
    ⟨_, _, refused⟩ | ⟨trail, normalized, clear, made, found, done⟩
  · rw [refused] at gave
    cases gave
  · rw [done] at gave ⊢
    cases gave
    have self : trail.uri ∈ ancestors trail.uri ++ [trail.uri] :=
      List.mem_append_right _ List.mem_cons_self
    obtain ⟨_, foundDir, isDir⟩ := exists_dir_withDirs clear self
    cases found.symm.trans foundDir
    have same : dir = (store.entries.get? trail.uri).getD (.newDir trail.uri now) := by
      rw [get?_withDirs clear, if_pos self] at found
      cases old : store.entries.get? trail.uri with
      | none => simpa [old] using found.symm
      | some existing => simpa [old] using found.symm
    have treeAfter : Tree (withDirs now (ancestors trail.uri ++ [trail.uri]) store.entries) :=
      tree.withDirs (isChain_ancestors_append trail) clear
    refine ⟨trail.uri, normalized, isDir, same, isPlanted_withDirs clear found, ?_⟩
    intro spelling later spelled
    exact mkdir_of_found { store with entries := _ } treeAfter spelled found isDir later

/-! ## Both -/

/-- In a reachable store, writing and making a directory succeed exactly if their
requirements are met, and have exactly the effect that is stated. A file that has been
written can be read, and a directory that has been made is not made again. -/
theorem writing_adds_exactly (reachable : Reachable store) (uri content : String) (now : Tick) :
    (((∃ entry, (store.addResource uri content now).1 = .ok entry) ↔
        ∃ target, normalize uri = .ok target ∧ CanWrite store target) ∧
      ∀ entry, (store.addResource uri content now).1 = .ok entry →
        ∃ target, normalize uri = .ok target ∧
          entry = ⟨target, .file, content, content.utf8ByteSize,
            ((store.entries.get? target).map (·.createdAt)).getD now, now⟩ ∧
          IsPlanted store (store.addResource uri content now).2 target entry now ∧
          ∀ spelling, normalize spelling = .ok target →
            (store.addResource uri content now).2.read spelling = .ok content) ∧
    (((∃ dir, (store.mkdir uri now).1 = .ok dir) ↔
        ∃ target, normalize uri = .ok target ∧ CanMakeDir store target) ∧
      ∀ dir, (store.mkdir uri now).1 = .ok dir →
        ∃ target, normalize uri = .ok target ∧ dir.isDir = true ∧
          dir = (store.entries.get? target).getD (.newDir target now) ∧
          IsPlanted store (store.mkdir uri now).2 target dir now ∧
          ∀ spelling later, normalize spelling = .ok target →
            (store.mkdir uri now).2.mkdir spelling later = (.ok dir, (store.mkdir uri now).2)) := by
  have tree := reachable.sound.tree
  exact ⟨⟨addResource_eq_ok_iff tree, fun _ gave => isPlanted_of_addResource tree gave⟩,
    ⟨mkdir_eq_ok_iff tree, fun _ gave => isPlanted_of_mkdir tree gave⟩⟩

/-- A store with one file in a directory. -/
def note : Store :=
  (empty 0).run [(⟨1, ⟨0⟩⟩, .addResource "viking://a/b" "text")]

/-- The file is written anew under another spelling of its address and keeps its age, and a
directory is made deep below the other one. -/
theorem note_is_rewritten :
    (∃ target, normalize "viking://a//b/" = .ok target ∧
      IsPlanted note (note.addResource "viking://a//b/" "new" 5).2 target
        ⟨"viking://a/b", .file, "new", 3, 1, 5⟩ 5 ∧
      (note.addResource "viking://a//b/" "new" 5).2.read "viking:///a/b" = .ok "new") ∧
    ∃ target, normalize "viking://a/x/y" = .ok target ∧
      IsPlanted note (note.mkdir "viking://a/x/y" 5).2 target (.newDir "viking://a/x/y" 5) 5 ∧
      (note.mkdir "viking://a/x/y" 5).2.mkdir "viking://a/x//y" 6 =
        (.ok (.newDir "viking://a/x/y" 5), (note.mkdir "viking://a/x/y" 5).2) := by
  have reachable : Reachable note := (Reachable.empty 0).run _
  have sameFile : normalize "viking:///a/b" = normalize "viking://a//b/" := by decide +kernel
  have sameDir : normalize "viking://a/x//y" = normalize "viking://a/x/y" := by decide +kernel
  have wrote : (note.addResource "viking://a//b/" "new" 5).1 =
      .ok ⟨"viking://a/b", .file, "new", 3, 1, 5⟩ := by decide +kernel
  have made : (note.mkdir "viking://a/x/y" 5).1 = .ok (.newDir "viking://a/x/y" 5) := by
    decide +kernel
  constructor
  · obtain ⟨target, normalized, _, planted, readable⟩ :=
      (writing_adds_exactly reachable "viking://a//b/" "new" 5).1.2 _ wrote
    exact ⟨target, normalized, planted, readable _ (sameFile.trans normalized)⟩
  · obtain ⟨target, normalized, _, _, planted, again⟩ :=
      (writing_adds_exactly reachable "viking://a/x/y" "" 5).2.2 _ made
    exact ⟨target, normalized, planted, again _ 6 (sameDir.trans normalized)⟩

end ContextDb.Store
