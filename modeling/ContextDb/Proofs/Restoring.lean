import ContextDb.Proofs.Obstacles
import ContextDb.Proofs.Placing
import Mathlib.Data.List.Sort

/-!
# Packs restore files

A pack that has been taken out of a directory can be unpacked where nothing is in the
way, and packing what is there then gives the same files in the same order. Unpacked
where it comes from, it changes nothing but the times of the last changes.
-/

namespace ContextDb.Store

open Uri

variable {store : Store} {entries after : SortedMap Entry} {source target first : Trail}
  {planned : List (String × String)} {now : Tick}

/-! ## Files in the order of their addresses -/

/-- The listed entries are those that are kept under their addresses. -/
theorem mem_values_iff (tree : Tree entries) {entry : Entry} :
    entry ∈ entries.values ↔ entries.get? entry.uri = some entry := by
  simp only [SortedMap.values, List.mem_map, Prod.exists, exists_eq_right]
  constructor
  · rintro ⟨key, member⟩
    have found := SortedMap.mem_toList_iff.1 member
    exact tree.keyed found ▸ found
  · exact fun found => ⟨entry.uri, SortedMap.mem_toList_iff.2 found⟩

/-- The entries are listed in the order of their addresses. -/
theorem pairwise_values (tree : Tree entries) :
    entries.values.Pairwise fun first second => first.uri < second.uri := by
  refine List.pairwise_map.2 (entries.sorted.imp_of_mem ?_)
  intro first second firstMember secondMember below
  rw [tree.keyed (SortedMap.mem_toList_iff.1 firstMember),
    tree.keyed (SortedMap.mem_toList_iff.1 secondMember)]
  exact below

/-- The files below a directory are the entries that are files and lie there. -/
theorem mem_filesBelow_iff (tree : Tree store.entries) {base : String} {entry : Entry} :
    entry ∈ store.filesBelow base ↔ store.entries.get? entry.uri = some entry ∧
      entry.isFile = true ∧ isBelow entry.uri base = true := by
  rw [filesBelow, List.mem_filter, mem_values_iff tree, Bool.and_eq_true]

/-- The files below a directory are listed in the order of their addresses. -/
theorem pairwise_filesBelow (tree : Tree store.entries) (base : String) :
    (store.filesBelow base).Pairwise fun first second => first.uri < second.uri :=
  (pairwise_values tree).filter _

/-- Two lists of entries in the order of their addresses that have the same members are
the same. -/
theorem eq_of_pairwise_uri {listed others : List Entry}
    (ordered : listed.Pairwise fun first second => first.uri < second.uri)
    (othersOrdered : others.Pairwise fun first second => first.uri < second.uri)
    (same : ∀ entry, entry ∈ listed ↔ entry ∈ others) : listed = others := by
  let precedes : Entry → Entry → Prop := fun first second => first.uri < second.uri
  have irreflexive : Std.Irrefl precedes := ⟨fun _ => String.lt_irrefl _⟩
  have antisymmetric : Std.Antisymm precedes :=
    ⟨fun _ _ less greater => absurd (String.lt_trans less greater) (String.lt_irrefl _)⟩
  exact List.Pairwise.eq_of_mem_iff (r := precedes) ordered othersOrdered same

/-! ## What is there after a sequence of writes -/

/-- What is there after several files have been written: these files, the directories
above them and what was there before. -/
structure Unpacked (before after : SortedMap Entry) (planned : List (String × String))
    (now : Tick) : Prop where
  /-- Each file has its content. -/
  files : ∀ uri content, (uri, content) ∈ planned →
    after.get? uri = some (written before uri content now)
  /-- Elsewhere only directories above files have been made. -/
  others : ∀ key, key ∉ planned.map (·.1) → after.get? key = (before.get? key).or
    (if key ∈ planned.flatMap fun file => ancestors file.1 then some (.newDir key now) else none)

/-- What a write does to other places that are no directories above it is nothing. -/
theorem written_afterWrite (clear : Clear entries (ancestors first.uri)) {uri : String}
    (different : first.uri ≠ uri) (apart : isBelow first.uri uri = false)
    (firstContent content : String) :
    written (afterWrite entries first.uri firstContent now) uri content now =
      written entries uri content now := by
  have notAncestor : uri ∉ ancestors first.uri := by
    intro member
    obtain ⟨upper, below, rfl⟩ := Trail.mem_ancestors_iff.1 member
    rw [Trail.isBelow_uri.2 below] at apart
    cases apart
  have untouched : (afterWrite entries first.uri firstContent now).get? uri =
      entries.get? uri := by
    rw [get?_afterWrite clear, if_neg different, if_neg notAncestor, Option.or_none]
  rw [written, written, untouched]

/-- A write and the writes that follow it are a sequence of writes. -/
theorem Unpacked.cons (clear : Clear entries (ancestors first.uri)) {content : String}
    (distinct : first.uri ∉ planned.map (·.1))
    (apart : ∀ uri ∈ planned.map (·.1), isBelow first.uri uri = false)
    (rest : Unpacked (afterWrite entries first.uri content now) after planned now) :
    Unpacked entries after ((first.uri, content) :: planned) now where
  files := by
    intro uri other member
    rcases List.mem_cons.1 member with same | inRest
    · cases same
      rw [rest.others _ distinct, get?_afterWrite clear, if_pos rfl, Option.some_or]
    · have listed : uri ∈ planned.map (·.1) := List.mem_map_of_mem (f := Prod.fst) inRest
      have different : first.uri ≠ uri := fun same => distinct (same ▸ listed)
      rw [rest.files uri other inRest, written_afterWrite clear different (apart uri listed)]
  others := by
    intro key elsewhere
    rw [List.map_cons, List.mem_cons, not_or] at elsewhere
    obtain ⟨notFirst, notLater⟩ := elsewhere
    rw [rest.others key notLater, get?_afterWrite clear, if_neg (Ne.symm notFirst), Option.or_assoc]
    have madeOrLater : key ∈ ((first.uri, content) :: planned).flatMap (fun file =>
        ancestors file.1) ↔ key ∈ ancestors first.uri ∨
          key ∈ planned.flatMap fun file => ancestors file.1 := by
      rw [List.flatMap_cons, List.mem_append]
    by_cases above : key ∈ ancestors first.uri
    · simp [above]
    · simp only [madeOrLater, above, if_false, Option.none_or, false_or]

/-- Files that fit and go to different places are written, and the addresses of all of
them are given in their order. -/
theorem writeAll_of_fit (tree : Tree store.entries) (spelled : Spelled (planned.map (·.1)))
    (distinct : (planned.map (·.1)).Nodup) (fit : Fit store.entries (planned.map (·.1)))
    (now : Tick) : ∃ after, writeAll now planned store = (.ok (planned.map (·.1)), after) ∧
      Unpacked store.entries after.entries planned now := by
  induction planned generalizing store with
  | nil => exact ⟨store, rfl, ⟨nofun, fun key _ => by simp⟩⟩
  | cons file others inductionHypothesis =>
    obtain ⟨uri, content⟩ := file
    obtain ⟨first, rfl, nonempty⟩ := spelled _ List.mem_cons_self
    have spelledOthers : Spelled (others.map (·.1)) := fun uri member =>
      spelled uri (List.mem_cons_of_mem _ member)
    obtain ⟨notAgain, distinctOthers⟩ := List.nodup_cons.1 distinct
    obtain ⟨admits, fitOthers⟩ := (fit_cons_iff tree spelledOthers content now).1 fit
    obtain ⟨clear, notDir⟩ := (admits_uri_iff tree).1 admits
    have wrote := addResource_of_admits tree nonempty admits content now
    have grown := grown_addResource tree first.uri content now
    rw [wrote] at grown
    obtain ⟨after, done, unpacked⟩ :=
      inductionHypothesis grown.tree spelledOthers distinctOthers fitOthers
    refine ⟨after, ?_, unpacked.cons clear notAgain fun uri member =>
      fit.apart _ List.mem_cons_self _ (List.mem_cons_of_mem _ member)⟩
    rw [writeAll_cons_of_ok wrote, done, (fits_written tree notDir).keyed]
    rfl

/-! ## The pack of a directory -/

/-- The files of the pack of a directory. -/
def packed (store : Store) (base : String) : List PackFile :=
  (store.filesBelow base).map fun entry => ⟨relative entry.uri base, entry.content⟩

/-- Where the files of a pack go below a directory, with their contents. -/
def plan (base : String) (files : List PackFile) : List (String × String) :=
  files.map fun file => (placed base file.path, file.content)

/-- A directory is packed as the files below it. -/
theorem exportPack_of_dir {uri base : String} {top : Entry} (normalized : normalize uri = .ok base)
    (found : store.entries.get? base = some top) (isDir : top.isDir = true) :
    store.exportPack uri = .ok ⟨base, store.packed base⟩ := by
  refine bind_eq_ok_iff.2 ⟨base, normalized, bind_eq_ok_iff.2 ⟨top, ?_, ?_⟩⟩
  · rw [entryAt, found]
  · rw [if_pos isDir]
    rfl

/-- The files of the pack of a directory come from files below it. -/
theorem exists_of_mem_packed (tree : Tree store.entries) {file : PackFile}
    (member : file ∈ store.packed source.uri) :
    ∃ (trail : Trail) (entry : Entry), store.entries.get? trail.uri = some entry ∧
      entry.isFile = true ∧ trail.Below source ∧
      file = ⟨relative trail.uri source.uri, entry.content⟩ := by
  obtain ⟨entry, listed, rfl⟩ := List.mem_map.1 member
  obtain ⟨found, isFile, below⟩ := (mem_filesBelow_iff tree).1 listed
  obtain ⟨trail, spelled⟩ := tree.exists_trail found
  rw [spelled] at found below ⊢
  exact ⟨trail, entry, found, isFile, Trail.isBelow_uri.1 below, rfl⟩

/-- The files of the pack of a directory go where they would be after a move. -/
theorem exists_of_mem_plan (tree : Tree store.entries) {uri content : String}
    (member : (uri, content) ∈ plan target.uri (store.packed source.uri)) :
    ∃ (trail : Trail) (entry : Entry), store.entries.get? trail.uri = some entry ∧
      entry.isFile = true ∧ trail.Below source ∧
      uri = (Trail.rebase source target trail).uri ∧ content = entry.content := by
  obtain ⟨file, isPacked, same⟩ := List.mem_map.1 member
  obtain ⟨trail, entry, found, isFile, below, rfl⟩ := exists_of_mem_packed tree isPacked
  cases same
  exact ⟨trail, entry, found, isFile, below, placed_relative below, rfl⟩

/-- All files of the pack of a directory are accepted below any directory. -/
theorem packed_accepted (tree : Tree store.entries) (source target : Trail) :
    (store.packed source.uri).mapM (packDestination target.uri) =
      .ok (plan target.uri (store.packed source.uri)) := by
  refine mapM_eq_ok_iff.2 (List.forall₂_map_right_iff.2 (List.forall₂_same.2 fun file member => ?_))
  obtain ⟨trail, entry, _, _, below, rfl⟩ := exists_of_mem_packed tree member
  exact packDestination_of_below (rebase_below below) (placed_relative below)

/-- The addresses that the files of the pack of a directory get are in order. -/
theorem pairwise_plan (tree : Tree store.entries) (source target : Trail) :
    ((plan target.uri (store.packed source.uri)).map (·.1)).Pairwise (· < ·) := by
  rw [plan, packed, List.map_map, List.map_map, List.pairwise_map]
  refine (pairwise_filesBelow tree source.uri).imp_of_mem ?_
  intro first second firstMember secondMember less
  have unseen : ∀ entry ∈ store.filesBelow source.uri,
      placed source.uri (relative entry.uri source.uri) = entry.uri := by
    intro entry member
    obtain ⟨found, _, below⟩ := (mem_filesBelow_iff tree).1 member
    obtain ⟨trail, spelled⟩ := tree.exists_trail found
    rw [spelled] at below ⊢
    exact placed_relative_self (Trail.isBelow_uri.1 below)
  rw [← unseen first firstMember, ← unseen second secondMember] at less
  exact placed_lt_placed_iff.2 (placed_lt_placed_iff.1 less)

/-- The files of the pack of a directory fit if nothing that is there is in their way: they
are not in the way of each other. -/
theorem fit_plan (tree : Tree store.entries)
    (admitted : ∀ (trail : Trail) (entry : Entry), store.entries.get? trail.uri = some entry →
      entry.isFile = true → trail.Below source →
      Admits store.entries (Trail.rebase source target trail).uri) :
    Fit store.entries ((plan target.uri (store.packed source.uri)).map (·.1)) := by
  constructor
  · intro uri member
    obtain ⟨⟨_, content⟩, planned, rfl⟩ := List.mem_map.1 member
    obtain ⟨trail, entry, found, isFile, below, rfl, _⟩ := exists_of_mem_plan tree planned
    exact admitted trail entry found isFile below
  · intro lowerUri lowerMember upperUri upperMember
    obtain ⟨⟨_, _⟩, lowerPlanned, rfl⟩ := List.mem_map.1 lowerMember
    obtain ⟨⟨_, _⟩, upperPlanned, rfl⟩ := List.mem_map.1 upperMember
    obtain ⟨lower, _, foundLower, _, lowerBelow, rfl, _⟩ := exists_of_mem_plan tree lowerPlanned
    obtain ⟨upper, file, foundUpper, isFile, upperBelow, rfl, _⟩ :=
      exists_of_mem_plan tree upperPlanned
    refine Trail.isBelow_uri_eq_false.2 fun below => ?_
    rw [rebase_below_rebase_iff lowerBelow upperBelow] at below
    refine tree.not_below (fun dir found => ?_) foundLower below
    cases foundUpper.symm.trans found
    simpa [Entry.isFile_eq_not_isDir] using isFile

/-- Unpacking the pack of a directory succeeds if nothing that is there is in the way of
its files. -/
theorem importPack_packed (tree : Tree store.entries) {uri : String}
    (normalized : normalize uri = .ok target.uri) (filled : store.packed source.uri ≠ [])
    (admitted : ∀ (trail : Trail) (entry : Entry), store.entries.get? trail.uri = some entry →
      entry.isFile = true → trail.Below source →
      Admits store.entries (Trail.rebase source target trail).uri) (now : Tick) :
    ∃ after, store.importPack uri (store.packed source.uri) now =
        (.ok ((store.packed source.uri).map fun file => placed target.uri file.path), after) ∧
      Tree after.entries ∧
      Unpacked store.entries after.entries (plan target.uri (store.packed source.uri)) now := by
  have accepted := packed_accepted tree source target
  have distinct : ((plan target.uri (store.packed source.uri)).map (·.1)).Nodup := by
    refine (pairwise_plan tree source target).imp ?_
    intro first second less same
    exact String.lt_irrefl _ (same ▸ less)
  obtain ⟨after, done, unpacked⟩ := writeAll_of_fit tree (spelled_of_accepted accepted) distinct
    (fit_plan tree admitted) now
  have grown := grown_writeAll tree (plan target.uri (store.packed source.uri)) now
  rw [done] at grown
  refine ⟨after, ?_, grown.tree, unpacked⟩
  rw [importPack_of_accepted normalized filled accepted, done, plan, List.map_map]
  rfl

/-! ## Unpacking in a vacant place -/

/-- A place for a pack: nothing is below it, and neither it nor anything above it is a
file. -/
structure Vacant (entries : SortedMap Entry) (base : String) : Prop where
  /-- Nothing is below it. -/
  empty : ∀ key entry, entries.get? key = some entry → isBelow key base = false
  /-- If it is there, it is a directory. -/
  here : ∀ existing, entries.get? base = some existing → existing.isDir = true
  /-- What is above it is a directory. -/
  above : ∀ key existing, entries.get? key = some existing → isBelow base key = true →
    existing.isDir = true

/-- Nothing is in the way of a file below a vacant place. -/
theorem Vacant.admits (vacant : Vacant entries target.uri) (tree : Tree entries)
    (below : first.Below target) : Admits entries first.uri where
  above := by
    intro key existing found belowKey
    obtain ⟨upper, rfl⟩ := tree.exists_trail found
    rcases below.total (Trail.isBelow_uri.1 belowKey) with rfl | targetBelow | upperBelow
    · exact vacant.here existing found
    · exact vacant.above _ existing found (Trail.isBelow_uri.2 targetBelow)
    · have notBelow := vacant.empty _ existing found
      rw [Trail.isBelow_uri.2 upperBelow] at notBelow
      cases notBelow
  here := by
    intro existing found
    have notBelow := vacant.empty _ existing found
    rw [Trail.isBelow_uri.2 below] at notBelow
    cases notBelow

/-- The files below a vacant place are those that have been unpacked there. -/
theorem filesBelow_of_unpacked {unpackedStore : Store} (tree : Tree unpackedStore.entries)
    (vacant : Vacant entries target.uri)
    (below : ∀ uri ∈ planned.map (·.1), isBelow uri target.uri = true)
    (ordered : (planned.map (·.1)).Pairwise (· < ·))
    (unpacked : Unpacked entries unpackedStore.entries planned now) :
    unpackedStore.filesBelow target.uri = planned.map fun file => .newFile file.1 file.2 now := by
  have free : ∀ uri, isBelow uri target.uri = true → entries.get? uri = none := by
    intro uri isBelowTarget
    refine Option.eq_none_iff_forall_ne_some.2 fun entry found => ?_
    exact Bool.false_ne_true ((vacant.empty uri entry found).symm.trans isBelowTarget)
  have new : ∀ uri content, (uri, content) ∈ planned →
      unpackedStore.entries.get? uri = some (.newFile uri content now) := by
    intro uri content member
    rw [unpacked.files uri content member, written,
      free uri (below uri (List.mem_map_of_mem (f := Prod.fst) member))]
  refine eq_of_pairwise_uri (pairwise_filesBelow tree target.uri)
    (List.pairwise_map.2 (List.pairwise_map.1 ordered)) fun entry => ?_
  rw [mem_filesBelow_iff tree, List.mem_map]
  constructor
  · rintro ⟨found, isFile, isBelowTarget⟩
    by_cases isPlanned : entry.uri ∈ planned.map (·.1)
    · obtain ⟨⟨uri, content⟩, member, same⟩ := List.mem_map.1 isPlanned
      have there := new uri content member
      rw [show uri = entry.uri from same, found] at there
      exact ⟨(uri, content), member, by rw [Option.some.inj there, ← same]⟩
    · -- Other entries below the place are directories.
      rw [unpacked.others _ isPlanned, free _ isBelowTarget, Option.none_or] at found
      split at found
      · rw [← Option.some.inj found] at isFile
        cases isFile
      · cases found
  · rintro ⟨⟨uri, content⟩, member, rfl⟩
    exact ⟨new uri content member, rfl, below uri (List.mem_map_of_mem (f := Prod.fst) member)⟩

/-- What has been unpacked in a vacant place is packed as the same files. -/
theorem packed_of_unpacked {unpackedStore : Store} (tree : Tree store.entries)
    (treeAfter : Tree unpackedStore.entries) (vacant : Vacant store.entries target.uri)
    (unpacked : Unpacked store.entries unpackedStore.entries
      (plan target.uri (store.packed source.uri)) now) :
    unpackedStore.packed target.uri = store.packed source.uri := by
  have below : ∀ uri ∈ (plan target.uri (store.packed source.uri)).map (·.1),
      isBelow uri target.uri = true := by
    intro uri member
    obtain ⟨⟨_, content⟩, planned, rfl⟩ := List.mem_map.1 member
    obtain ⟨trail, _, _, _, trailBelow, rfl, _⟩ := exists_of_mem_plan tree planned
    exact Trail.isBelow_uri.2 (rebase_below trailBelow)
  have seen : ∀ file ∈ store.packed source.uri,
      relative (placed target.uri file.path) target.uri = file.path := by
    intro file member
    obtain ⟨trail, _, _, _, trailBelow, rfl⟩ := exists_of_mem_packed tree member
    exact relative_placed trailBelow
  rw [packed, filesBelow_of_unpacked treeAfter vacant below (pairwise_plan tree source target)
    unpacked, plan, List.map_map, List.map_map]
  calc
    _ = (store.packed source.uri).map id := by
      refine List.map_congr_left fun file member => ?_
      simp only [Function.comp_apply, Entry.newFile, seen file member, id]
    _ = store.packed source.uri := List.map_id _

/-! ## Unpacking where it comes from -/

/-- An entry but for the time of its last change. -/
def unstamped (entry : Entry) : Entry :=
  { entry with updatedAt := 0 }

/-- Nothing is in the way of a file that is there but the file itself. -/
theorem admits_of_found (tree : Tree entries) {entry : Entry}
    (found : entries.get? first.uri = some entry) (isFile : entry.isFile = true) :
    Admits entries first.uri where
  above := by
    intro key existing foundAbove below
    obtain ⟨upper, rfl⟩ := tree.exists_trail foundAbove
    obtain ⟨dir, foundDir, isDir⟩ := tree.above found (Trail.isBelow_uri.1 below)
    cases foundAbove.symm.trans foundDir
    exact isDir
  here := by
    intro existing foundHere
    cases found.symm.trans foundHere
    simpa [Entry.isFile_eq_not_isDir] using isFile

/-- Files that are unpacked where they come from are only stamped anew. -/
theorem unstamped_of_unpacked (tree : Tree store.entries)
    (unpacked : Unpacked store.entries after (plan source.uri (store.packed source.uri)) now)
    (key : String) :
    (after.get? key).map unstamped = (store.entries.get? key).map unstamped := by
  have here : ∀ uri content, (uri, content) ∈ plan source.uri (store.packed source.uri) →
      ∃ (trail : Trail) (entry : Entry), store.entries.get? trail.uri = some entry ∧
        entry.isFile = true ∧ uri = trail.uri ∧ content = entry.content := by
    intro uri content planned
    obtain ⟨trail, entry, found, isFile, below, spelled, same⟩ := exists_of_mem_plan tree planned
    rw [Trail.rebase_self below.within] at spelled
    exact ⟨trail, entry, found, isFile, spelled, same⟩
  by_cases isPlanned : key ∈ (plan source.uri (store.packed source.uri)).map (·.1)
  · obtain ⟨⟨_, _⟩, planned, rfl⟩ := List.mem_map.1 isPlanned
    obtain ⟨trail, entry, found, isFile, rfl, rfl⟩ := here _ _ planned
    have size := (tree.fits _ entry found).fileSize isFile
    rw [unpacked.files _ _ planned, written, found]
    simp [unstamped, Entry.withContent, size]
  · rw [unpacked.others key isPlanned]
    split
    · -- The directories above files are there already.
      rename_i member
      obtain ⟨⟨_, _⟩, planned, above⟩ := List.mem_flatMap.1 member
      obtain ⟨trail, entry, found, _, rfl, _⟩ := here _ _ planned
      obtain ⟨upper, below, rfl⟩ := Trail.mem_ancestors_iff.1 above
      obtain ⟨dir, foundDir, _⟩ := tree.above found below
      rw [foundDir, Option.some_or]
    · rw [Option.or_none]

/-! ## Both ways -/

/-- A directory with files can be packed. Unpacking the pack in a vacant place succeeds with
one address for each file, and what is there then is packed as the same files. Unpacking it
where it comes from succeeds as well and changes nothing but the times of the last
changes. -/
theorem packs_restore_files (reachable : Reachable store) {origin place dir base : String}
    {top : Entry} (isSource : normalize origin = .ok dir) (isTarget : normalize place = .ok base)
    (found : store.entries.get? dir = some top) (isDir : top.isDir = true)
    (filled : ∃ key file, store.entries.get? key = some file ∧ file.isFile = true ∧
      isBelow key dir = true)
    (vacant : Vacant store.entries base) (now : Tick) :
    ∃ pack, store.exportPack origin = .ok pack ∧
      (∃ after restored, store.importPack place pack.files now =
          (.ok (pack.files.map fun file => placed base file.path), after) ∧
        after.exportPack place = .ok restored ∧ restored.files = pack.files) ∧
      ∃ after, store.importPack origin pack.files now =
          (.ok (pack.files.map fun file => placed dir file.path), after) ∧
        ∀ key, (after.entries.get? key).map unstamped =
          (store.entries.get? key).map unstamped := by
  have tree := reachable.sound.tree
  obtain ⟨source, rfl⟩ := exists_trail_of_normalize isSource
  obtain ⟨target, rfl⟩ := exists_trail_of_normalize isTarget
  have hasFile : store.packed source.uri ≠ [] := by
    obtain ⟨key, file, foundFile, isFile, below⟩ := filled
    have keyed := (tree.fits key file foundFile).keyed
    have listed : file ∈ store.filesBelow source.uri :=
      (mem_filesBelow_iff tree).2 (keyed.symm ▸ ⟨foundFile, isFile, below⟩)
    exact List.ne_nil_of_mem (List.mem_map_of_mem listed)
  refine ⟨_, exportPack_of_dir isSource found isDir, ?_, ?_⟩
  · obtain ⟨after, imported, treeAfter, unpacked⟩ := importPack_packed tree isTarget hasFile
      (fun _ _ _ _ below => vacant.admits tree (rebase_below below)) now
    have samePack := packed_of_unpacked tree treeAfter vacant unpacked
    obtain ⟨file, member⟩ := List.exists_mem_of_ne_nil _ (samePack.symm ▸ hasFile)
    obtain ⟨trail, _, foundFile, _, below, _⟩ := exists_of_mem_packed treeAfter member
    obtain ⟨dir, foundDir, isDirAfter⟩ := treeAfter.above foundFile below
    exact ⟨after, _, imported, exportPack_of_dir isTarget foundDir isDirAfter, samePack⟩
  · have admitted : ∀ (trail : Trail) (entry : Entry),
        store.entries.get? trail.uri = some entry → entry.isFile = true → trail.Below source →
        Admits store.entries (Trail.rebase source source trail).uri := by
      intro trail entry foundFile isFile below
      rw [Trail.rebase_self below.within]
      exact admits_of_found tree foundFile isFile
    obtain ⟨after, imported, _, unpacked⟩ := importPack_packed tree isSource hasFile admitted now
    exact ⟨after, imported, unstamped_of_unpacked tree unpacked⟩

/-- A store with a file in a directory and one in a directory in it. -/
def nested : Store :=
  (((empty 0).addResource "viking://d/b" "1" 1).2.addResource "viking://d/a/x" "2" 2).2

/-- The pack of that directory can be unpacked beside it and where it comes from. -/
theorem nested_is_restored :
    ∃ pack, nested.exportPack "viking://d" = .ok pack ∧
      (∃ after restored, nested.importPack "viking://t//" pack.files 3 =
          (.ok (pack.files.map fun file => placed "viking://t" file.path), after) ∧
        after.exportPack "viking://t//" = .ok restored ∧ restored.files = pack.files) ∧
      ∃ after, nested.importPack "viking://d" pack.files 3 =
          (.ok (pack.files.map fun file => placed "viking://d" file.path), after) ∧
        ∀ key, (after.entries.get? key).map unstamped =
          (nested.entries.get? key).map unstamped := by
  have reachable : Reachable nested :=
    ((Reachable.empty 0).step ⟨1, ⟨0⟩⟩ (.addResource "viking://d/b" "1")).step ⟨2, ⟨0⟩⟩
      (.addResource "viking://d/a/x" "2")
  have vacant : Vacant nested.entries "viking://t" := by
    have held : ∀ pair ∈ nested.entries.toList, isBelow pair.1 "viking://t" = false ∧
        (pair.1 = "viking://t" → pair.2.isDir = true) ∧
        (isBelow "viking://t" pair.1 = true → pair.2.isDir = true) := by decide +kernel
    refine ⟨fun key entry found => ?_, fun existing found => ?_, fun key existing found => ?_⟩
    · exact (held (key, entry) (SortedMap.mem_toList_iff.2 found)).1
    · exact (held (_, existing) (SortedMap.mem_toList_iff.2 found)).2.1 rfl
    · exact (held (key, existing) (SortedMap.mem_toList_iff.2 found)).2.2
  have found : nested.entries.get? "viking://d" = some (.newDir "viking://d" 1) := by
    decide +kernel
  exact packs_restore_files reachable rfl rfl found rfl
    ⟨"viking://d/b", .newFile "viking://d/b" "1" 1, by decide +kernel⟩ vacant 3

end ContextDb.Store
