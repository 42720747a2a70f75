import ContextDb.Proofs.Reachable

/-!
# What is in the way of a pack

A pack fits a store if nothing is in the way of its files: neither what the store
holds nor another file of the pack. What does not fit is only found when it is its
turn, after the files before it have been written. So unpacking is all or nothing
exactly if the pack fits or its first file does not.
-/

namespace ContextDb.Store

open Uri

variable {store : Store} {entries : SortedMap Entry} {trail first later : Trail}
  {planned : List (String × String)} {now : Tick}

/-- Nothing that is there is in the way of a file: all above its address are
directories, and at it there is none. -/
structure Admits (entries : SortedMap Entry) (uri : String) : Prop where
  /-- No file is above the address. -/
  above : ∀ key existing, entries.get? key = some existing → isBelow uri key = true →
    existing.isDir = true
  /-- No directory is at the address. -/
  here : ∀ existing, entries.get? uri = some existing → existing.isDir = false

/-- Files at some addresses fit: nothing that is there is in their way, and they are
not in the way of each other. -/
structure Fit (entries : SortedMap Entry) (uris : List String) : Prop where
  /-- Nothing that is there is in the way. -/
  admitted : ∀ uri ∈ uris, Admits entries uri
  /-- None of them lies below another. -/
  apart : ∀ lower ∈ uris, ∀ upper ∈ uris, isBelow lower upper = false

theorem admits_uri_iff (tree : Tree entries) :
    Admits entries trail.uri ↔ Clear entries (ancestors trail.uri) ∧
      ∀ existing, entries.get? trail.uri = some existing → existing.isDir = false := by
  constructor
  · intro admits
    refine ⟨fun dir member existing found => ?_, admits.here⟩
    obtain ⟨upper, below, rfl⟩ := Trail.mem_ancestors_iff.1 member
    exact admits.above upper.uri existing found (Trail.isBelow_uri.2 below)
  · rintro ⟨clear, notDir⟩
    refine ⟨fun key existing found below => ?_, notDir⟩
    obtain ⟨upper, rfl⟩ := tree.exists_trail found
    exact clear upper.uri (Trail.uri_mem_ancestors_iff.2 (Trail.isBelow_uri.1 below)) existing found

/-- What a write leaves at its address is a file. -/
theorem isDir_written
    (notDir : ∀ existing, entries.get? trail.uri = some existing → existing.isDir = false)
    (content : String) (now : Tick) :
    (written entries trail.uri content now).isDir = false := by
  unfold written
  split
  · rename_i existing found
    exact notDir existing found
  · rfl

/-- The entries after a write are the file, the directories above it and the old ones. -/
theorem get?_afterWrite (clear : Clear entries (ancestors trail.uri)) (content : String)
    (now : Tick) (key : String) :
    (afterWrite entries trail.uri content now).get? key =
      if trail.uri = key then some (written entries trail.uri content now)
      else (entries.get? key).or
        (if key ∈ ancestors trail.uri then some (.newDir key now) else none) := by
  rw [afterWrite, SortedMap.get?_insert, get?_withDirs clear]

/-- A write is in the way of what lies below or above it, and of nothing else. -/
theorem admits_afterWrite_iff (tree : Tree entries)
    (admits : Admits entries first.uri) (content : String) (now : Tick) :
    Admits (afterWrite entries first.uri content now) later.uri ↔
      Admits entries later.uri ∧ ¬ later.Below first ∧ ¬ first.Below later := by
  obtain ⟨clear, notDir⟩ := (admits_uri_iff tree).1 admits
  have isFile := isDir_written notDir content now
  have lookUp := get?_afterWrite clear content now
  have wrote := (lookUp first.uri).trans (if_pos rfl)
  constructor
  · intro admitsLater
    have notBelow : ¬ later.Below first := by
      intro below
      have isDir := admitsLater.above _ _ wrote (Trail.isBelow_uri.2 below)
      rw [isFile] at isDir
      cases isDir
    have notAbove : ¬ first.Below later := by
      intro above
      have member := Trail.uri_mem_ancestors_iff.2 above
      have made : ∃ dir, (withDirs now (ancestors first.uri) entries).get? later.uri = some dir ∧
          dir.isDir = true := exists_dir_withDirs clear member
      obtain ⟨dir, found, isDir⟩ := made
      have elsewhere : first.uri ≠ later.uri := fun same =>
        Trail.not_below_self (Trail.uri_injective same ▸ above)
      have foundAfter : (afterWrite entries first.uri content now).get? later.uri = some dir := by
        rw [afterWrite, SortedMap.get?_insert, if_neg elsewhere, found]
      rw [admitsLater.here dir foundAfter] at isDir
      cases isDir
    refine ⟨⟨fun key existing found below => ?_, fun existing found => ?_⟩, notBelow, notAbove⟩
    · have elsewhere : first.uri ≠ key := by
        rintro rfl
        exact notBelow (Trail.isBelow_uri.1 below)
      refine admitsLater.above key existing ?_ below
      rw [lookUp, if_neg elsewhere, found, Option.some_or]
    · by_cases same : first.uri = later.uri
      · exact notDir existing (same ▸ found)
      · refine admitsLater.here existing ?_
        rw [lookUp, if_neg same, found, Option.some_or]
  · rintro ⟨admitsLater, notBelow, notAbove⟩
    refine ⟨fun key existing found below => ?_, fun existing found => ?_⟩
    · have elsewhere : first.uri ≠ key := by
        rintro rfl
        exact notBelow (Trail.isBelow_uri.1 below)
      rw [lookUp, if_neg elsewhere] at found
      rcases Option.or_eq_some_iff.1 found with old | ⟨_, new⟩
      · exact admitsLater.above key existing old below
      · split at new
        · cases new
          rfl
        · cases new
    · rw [lookUp] at found
      split at found
      · cases found
        exact isFile
      · have notAncestor : later.uri ∉ ancestors first.uri := fun member =>
          notAbove (Trail.uri_mem_ancestors_iff.1 member)
        rw [if_neg notAncestor, Option.or_none] at found
        exact admitsLater.here existing found

/-- The addresses are those of places other than the root. -/
def Spelled (uris : List String) : Prop :=
  ∀ uri ∈ uris, ∃ trail : Trail, uri = trail.uri ∧ trail.names ≠ []

/-- Files fit if the first is admitted and the others fit once it has been written. -/
theorem fit_cons_iff (tree : Tree entries) {others : List String}
    (spelled : Spelled others) (content : String) (now : Tick) :
    Fit entries (first.uri :: others) ↔
      Admits entries first.uri ∧ Fit (afterWrite entries first.uri content now) others := by
  have self : isBelow first.uri first.uri = false :=
    Trail.isBelow_uri_eq_false.2 Trail.not_below_self
  constructor
  · intro fit
    have admits := fit.admitted first.uri List.mem_cons_self
    refine ⟨admits, fun uri member => ?_, fun lower inOthers upper alsoInOthers =>
      fit.apart lower (List.mem_cons_of_mem _ inOthers) upper (List.mem_cons_of_mem _ alsoInOthers)⟩
    obtain ⟨later, rfl, _⟩ := spelled uri member
    have inAll := List.mem_cons_of_mem first.uri member
    exact (admits_afterWrite_iff tree admits content now).2 ⟨fit.admitted _ inAll,
      Trail.isBelow_uri_eq_false.1 (fit.apart _ inAll _ List.mem_cons_self),
      Trail.isBelow_uri_eq_false.1 (fit.apart _ List.mem_cons_self _ inAll)⟩
  · rintro ⟨admits, fit⟩
    have afterwards : ∀ uri ∈ others, Admits entries uri ∧ isBelow uri first.uri = false ∧
        isBelow first.uri uri = false := by
      intro uri member
      obtain ⟨later, rfl, _⟩ := spelled uri member
      obtain ⟨admitsLater, notBelow, notAbove⟩ :=
        (admits_afterWrite_iff tree admits content now).1 (fit.admitted _ member)
      exact ⟨admitsLater, Trail.isBelow_uri_eq_false.2 notBelow,
        Trail.isBelow_uri_eq_false.2 notAbove⟩
    refine ⟨fun uri member => ?_, fun lower lowerMember upper upperMember => ?_⟩
    · rcases List.mem_cons.1 member with rfl | inOthers
      · exact admits
      · exact (afterwards uri inOthers).1
    · rcases List.mem_cons.1 lowerMember with rfl | lowerLater
      · rcases List.mem_cons.1 upperMember with rfl | upperLater
        · exact self
        · exact (afterwards upper upperLater).2.2
      · rcases List.mem_cons.1 upperMember with rfl | upperLater
        · exact (afterwards lower lowerLater).2.1
        · exact fit.apart lower lowerLater upper upperLater

/-- A file that is admitted is written. -/
theorem addResource_of_admits (tree : Tree store.entries) (nonempty : trail.names ≠ [])
    (admits : Admits store.entries trail.uri) (content : String) (now : Tick) :
    store.addResource trail.uri content now =
      (.ok (written store.entries trail.uri content now),
        { store with entries := afterWrite store.entries trail.uri content now }) := by
  obtain ⟨clear, notDir⟩ := (admits_uri_iff tree).1 admits
  exact addResource_of_clear tree nonempty clear notDir content now

/-- A file that is not admitted is not written, and nothing else is. -/
theorem addResource_of_not_admits (tree : Tree store.entries) (nonempty : trail.names ≠ [])
    (blocked : ¬ Admits store.entries trail.uri) (content : String) (now : Tick) :
    ∃ what, store.addResource trail.uri content now = (.error (.alreadyExists what), store) := by
  rcases addResource_uri_cases tree nonempty content now with refused | ⟨clear, notDir, _⟩
  · exact refused
  · exact absurd ((admits_uri_iff tree).2 ⟨clear, notDir⟩) blocked

/-- Writing one file after another succeeds exactly if they fit. -/
theorem writeAll_eq_ok_iff (tree : Tree store.entries) (spelled : Spelled (planned.map (·.1))) :
    (∃ written, (writeAll now planned store).1 = .ok written) ↔
      Fit store.entries (planned.map (·.1)) := by
  induction planned generalizing store with
  | nil => exact ⟨fun _ => ⟨nofun, nofun⟩, fun _ => ⟨[], rfl⟩⟩
  | cons file others inductionHypothesis =>
    obtain ⟨uri, content⟩ := file
    obtain ⟨trail, rfl, nonempty⟩ := spelled _ List.mem_cons_self
    have spelledOthers : Spelled (others.map (·.1)) := fun uri member =>
      spelled uri (List.mem_cons_of_mem _ member)
    rw [List.map_cons, fit_cons_iff tree spelledOthers content now]
    by_cases admits : Admits store.entries trail.uri
    · have grown := grown_addResource tree trail.uri content now
      rw [addResource_of_admits tree nonempty admits] at grown
      rw [← inductionHypothesis grown.tree spelledOthers]
      rw [writeAll_cons_of_ok (addResource_of_admits tree nonempty admits content now)]
      cases (writeAll now others _).1 <;> simp [admits, Except.map]
    · obtain ⟨what, refused⟩ := addResource_of_not_admits tree nonempty admits content now
      rw [writeAll_cons_of_error refused]
      simp [admits]

/-! ## Stamps -/

/-- There is an entry that was last changed at a given time. -/
def StampedAt (entries : SortedMap Entry) (uri : String) (now : Tick) : Prop :=
  ∃ entry, entries.get? uri = some entry ∧ entry.updatedAt = now

/-- What a write leaves at its address carries the time of the write. -/
theorem stampedAt_afterWrite (entries : SortedMap Entry) (target content : String) (now : Tick) :
    StampedAt (afterWrite entries target content now) target now := by
  refine ⟨written entries target content now, by simp [afterWrite], ?_⟩
  unfold written
  split
  · rfl
  · rfl

/-- A write takes no stamp of its time away. -/
theorem stampedAt_addResource (tree : Tree store.entries) {uri : String}
    (stamped : StampedAt store.entries uri now) (target content : String) :
    StampedAt (store.addResource target content now).2.entries uri now := by
  rcases addResource_cases tree target content now with
    ⟨_, _, refused⟩ | ⟨trail, nonempty, _, clear, notDir, wrote⟩
  · rw [refused]
    exact stamped
  · rw [wrote]
    by_cases same : trail.uri = uri
    · exact same ▸ stampedAt_afterWrite store.entries trail.uri content now
    · obtain ⟨entry, found, isNow⟩ := stamped
      refine ⟨entry, ?_, isNow⟩
      rw [get?_afterWrite clear, if_neg same, found, Option.some_or]

/-- A sequence of writes takes no stamp of its time away. -/
theorem stampedAt_writeAll (tree : Tree store.entries) {uri : String}
    (stamped : StampedAt store.entries uri now) (planned : List (String × String)) :
    StampedAt (writeAll now planned store).2.entries uri now := by
  have kept : ∀ file ∈ planned, ∀ store : Store,
      Tree store.entries ∧ StampedAt store.entries uri now →
      Tree (store.addResource file.1 file.2 now).2.entries ∧
        StampedAt (store.addResource file.1 file.2 now).2.entries uri now := by
    rintro ⟨target, content⟩ _ store ⟨tree, stamped⟩
    exact ⟨(grown_addResource tree target content now).tree,
      stampedAt_addResource tree stamped target content⟩
  exact (writeAll_keeps kept ⟨tree, stamped⟩).2

/-! ## All or nothing -/

/-- An operation that fails changes nothing. -/
def AllOrNothing {α : Type} (store : Store) (outcome : Outcome α) : Prop :=
  ∀ error, outcome.1 = .error error → outcome.2 = store

/-- Once the first file has been written, the store is no longer what it was. -/
theorem writeAll_ne_of_admits (tree : Tree store.entries)
    (past : ∀ uri, ¬ StampedAt store.entries uri now) (nonempty : trail.names ≠ [])
    (admits : Admits store.entries trail.uri) (content : String)
    (others : List (String × String)) :
    (writeAll now ((trail.uri, content) :: others) store).2 ≠ store := by
  intro unchanged
  have wrote := addResource_of_admits tree nonempty admits content now
  have grown := grown_addResource tree trail.uri content now
  rw [wrote] at grown
  have stamped := stampedAt_writeAll grown.tree
    (stampedAt_afterWrite store.entries trail.uri content now) others
  rw [writeAll_cons_of_ok wrote] at unchanged
  rw [unchanged] at stamped
  exact past trail.uri stamped

/-- Writing one file after another is all or nothing exactly if they fit or the first
is not admitted. -/
theorem allOrNothing_writeAll_iff (tree : Tree store.entries)
    (past : ∀ uri, ¬ StampedAt store.entries uri now)
    (spelled : Spelled (planned.map (·.1))) :
    AllOrNothing store (writeAll now planned store) ↔
      Fit store.entries (planned.map (·.1)) ∨
        ∀ first ∈ planned.head?, ¬ Admits store.entries first.1 := by
  constructor
  · intro atomic
    by_cases fit : Fit store.entries (planned.map (·.1))
    · exact .inl fit
    · right
      rintro ⟨uri, content⟩ isFirst admits
      obtain ⟨others, rfl⟩ := List.head?_eq_some_iff.1 isFirst
      obtain ⟨trail, rfl, nonempty⟩ := spelled _ List.mem_cons_self
      cases result : (writeAll now ((trail.uri, content) :: others) store).1 with
      | ok written => exact fit ((writeAll_eq_ok_iff tree spelled).1 ⟨written, result⟩)
      | error error =>
        exact writeAll_ne_of_admits tree past nonempty admits content others (atomic error result)
  · rintro (fit | blocked) error failed
    · have done : ∃ written, (writeAll now planned store).1 = .ok written :=
        (writeAll_eq_ok_iff tree spelled).2 fit
      obtain ⟨written, done⟩ := done
      rw [done] at failed
      cases failed
    · cases planned with
      | nil => rfl
      | cons file others =>
        obtain ⟨uri, content⟩ := file
        obtain ⟨trail, rfl, nonempty⟩ := spelled _ List.mem_cons_self
        obtain ⟨what, refused⟩ :=
          addResource_of_not_admits tree nonempty (blocked _ rfl) content now
        rw [writeAll_cons_of_error refused]

/-- Once the addresses of all files are accepted, the files are written. -/
theorem importPack_of_accepted {uri base : String} {files : List PackFile}
    (normalized : normalize uri = .ok base) (nonempty : files ≠ [])
    (accepted : files.mapM (packDestination base) = .ok planned) :
    store.importPack uri files now = writeAll now planned store := by
  rw [importPack, withUri_of_ok normalized, accepted]
  simp [nonempty]

/-- The files of a pack go to places other than the root. -/
theorem spelled_of_accepted {base : Trail} {files : List PackFile}
    (accepted : files.mapM (packDestination base.uri) = .ok planned) :
    Spelled (planned.map (·.1)) := by
  intro uri member
  obtain ⟨pair, inPlan, rfl⟩ := List.mem_map.1 member
  obtain ⟨trail, spelled, below⟩ := exists_below_of_accepted accepted pair inPlan
  exact ⟨trail, spelled, below.names_ne_nil⟩

/-- Unpacking into a reachable store that was last changed before is all or nothing
exactly if, once the addresses of all files are accepted, the files fit or already
the first is not admitted. -/
theorem allOrNothing_importPack_iff (reachable : Reachable store)
    (past : ∀ uri entry, store.entries.get? uri = some entry → entry.updatedAt < now)
    (target : String) (files : List PackFile) :
    AllOrNothing store (store.importPack target files now) ↔
      ∀ base planned, normalize target = .ok base →
        files.mapM (packDestination base) = .ok planned →
        Fit store.entries (planned.map (·.1)) ∨
          ∀ first ∈ planned.head?, ¬ Admits store.entries first.1 := by
  have tree := reachable.sound.tree
  have unstamped : ∀ uri, ¬ StampedAt store.entries uri now := by
    rintro uri ⟨entry, found, isNow⟩
    exact Nat.ne_of_lt (past uri entry found) isNow
  constructor
  · intro atomic normal planned normalized accepted
    obtain ⟨base, rfl⟩ := exists_trail_of_normalize normalized
    by_cases empty : files = []
    · subst empty
      cases accepted
      exact .inl ⟨nofun, nofun⟩
    · rw [importPack_of_accepted normalized empty accepted] at atomic
      exact (allOrNothing_writeAll_iff tree unstamped (spelled_of_accepted accepted)).1 atomic
  · intro sparing
    rcases importPack_cases store target files now with
      ⟨_, _, refused⟩ | ⟨base, planned, normalized, accepted, same⟩
    · rw [refused]
      exact fun _ _ => rfl
    · rw [same]
      exact (allOrNothing_writeAll_iff tree unstamped (spelled_of_accepted accepted)).2
        (sparing base.uri planned normalized accepted)

/-- A pack whose first file is in the way of its second is unpacked by half. -/
theorem half_unpacked_when_file_lies_in_file :
    Reachable (empty 0) ∧
    ((empty 0).importPack "viking://d" [⟨"a", "x"⟩, ⟨"a/b", "y"⟩] 1).1 =
      .error (.alreadyExists "viking://d/a is a file") ∧
    ((empty 0).importPack "viking://d" [⟨"a", "x"⟩, ⟨"a/b", "y"⟩] 1).2.entries.keys =
      ["viking://", "viking://d", "viking://d/a"] ∧
    ((empty 0).importPack "viking://d" [⟨"a", "x"⟩, ⟨"a/b", "y"⟩] 1).2 ≠ empty 0 := by
  have keys : ((empty 0).importPack "viking://d" [⟨"a", "x"⟩, ⟨"a/b", "y"⟩] 1).2.entries.keys =
      ["viking://", "viking://d", "viking://d/a"] := by decide +kernel
  refine ⟨.empty 0, rfl, keys, fun same => ?_⟩
  rw [same] at keys
  cases keys

/-- The same pack is all or nothing where a file is in the way of both of its files. -/
theorem all_or_nothing_below_file :
    (∀ uri entry, ((empty 0).addResource "viking://d" "z" 1).2.entries.get? uri = some entry →
      entry.updatedAt < 2) ∧
    ((((empty 0).addResource "viking://d" "z" 1).2).importPack "viking://d"
      [⟨"a", "x"⟩, ⟨"a/b", "y"⟩] 2).1 = .error (.alreadyExists "viking://d is a file") ∧
    AllOrNothing ((empty 0).addResource "viking://d" "z" 1).2
      (((empty 0).addResource "viking://d" "z" 1).2.importPack "viking://d"
        [⟨"a", "x"⟩, ⟨"a/b", "y"⟩] 2) := by
  have reachable : Reachable ((empty 0).addResource "viking://d" "z" 1).2 :=
    (Reachable.empty 0).step ⟨1, ⟨0⟩⟩ (.addResource "viking://d" "z")
  have past : ∀ uri entry, ((empty 0).addResource "viking://d" "z" 1).2.entries.get? uri =
      some entry → entry.updatedAt < 2 := by
    intro uri entry found
    have held : ∀ pair ∈ ((empty 0).addResource "viking://d" "z" 1).2.entries.toList,
        pair.2.updatedAt < 2 := by decide +kernel
    exact held (uri, entry) (SortedMap.mem_toList_iff.2 found)
  refine ⟨past, rfl, (allOrNothing_importPack_iff reachable past _ _).2 ?_⟩
  intro base planned normalized accepted
  cases (show normalize "viking://d" = .ok "viking://d" from rfl).symm.trans normalized
  cases (show [⟨"a", "x"⟩, ⟨"a/b", "y"⟩].mapM (packDestination "viking://d") =
    .ok [("viking://d/a", "x"), ("viking://d/a/b", "y")] from rfl).symm.trans accepted
  refine .inr fun first isFirst admits => ?_
  cases isFirst
  have isDir := admits.above "viking://d" _ rfl rfl
  cases isDir

end ContextDb.Store
