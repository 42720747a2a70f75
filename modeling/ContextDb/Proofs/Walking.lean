import ContextDb.Proofs.ByteOrder
import ContextDb.Proofs.Reachable
import ContextDb.Proofs.Restoring

/-!
# Walking through the tree

A directory lists what has it as parent, which is told by the last slash of an address.
What lies below a directory is told by the beginning of an address. Both agree: whoever
lists directory after directory comes to everything below the first one and to nothing
else.
-/

namespace ContextDb.Store

open Uri Text

variable {store : Store} {uri base : String} {lower upper : Trail} {entry dir : Entry}
  {listed : List Entry}

/-- An address is a spelling of that of a directory. -/
structure NamesDir (store : Store) (uri base : String) : Prop where
  normalized : normalize uri = .ok base
  isDir : ∃ dir, store.entries.get? base = some dir ∧ dir.isDir = true

/-- What is reached from an address by listing directory after directory. -/
inductive Walked (store : Store) (top : String) : Entry → Prop where
  | first {entry : Entry} {listed : List Entry} (listing : store.ls top = .ok listed)
      (member : entry ∈ listed) : Walked store top entry
  | deeper {dir entry : Entry} {listed : List Entry} (prior : Walked store top dir)
      (listing : store.ls dir.uri = .ok listed) (member : entry ∈ listed) :
      Walked store top entry

/-! ## Listing one directory -/

theorem entryAt_eq_ok_iff :
    store.entryAt base = .ok entry ↔ store.entries.get? base = some entry := by
  rw [entryAt]
  cases store.entries.get? base <;> simp

/-- What can be listed are the directories, and what is listed are their children. -/
theorem ls_eq_ok_iff :
    store.ls uri = .ok listed ↔ ∃ base, NamesDir store uri base ∧ store.children base = listed := by
  rw [ls, bind_eq_ok_iff]
  refine exists_congr fun base => ?_
  rw [bind_eq_ok_iff]
  constructor
  · rintro ⟨normalized, dir, found, done⟩
    split at done
    · rename_i isDir
      exact ⟨⟨normalized, dir, entryAt_eq_ok_iff.1 found, isDir⟩, Except.ok.inj done⟩
    · cases done
  · rintro ⟨⟨normalized, dir, found, isDir⟩, rfl⟩
    exact ⟨normalized, dir, entryAt_eq_ok_iff.2 found, by rw [if_pos isDir]; rfl⟩

/-- A directory can be listed. -/
theorem NamesDir.ls_eq (names : NamesDir store uri base) :
    store.ls uri = .ok (store.children base) :=
  ls_eq_ok_iff.2 ⟨base, names, rfl⟩

/-- The children of a directory are the entries whose parent it is. -/
theorem mem_children_iff (tree : Tree store.entries) :
    entry ∈ store.children base ↔
      store.entries.get? entry.uri = some entry ∧ parent? entry.uri = some base := by
  rw [children, List.mem_filter, mem_values_iff tree, decide_eq_true_eq]

/-- The children of a directory are listed in the order of their addresses. -/
theorem pairwise_children (tree : Tree store.entries) (base : String) :
    (store.children base).Pairwise fun first second => first.uri < second.uri :=
  (pairwise_values tree).filter _

/-- The summary of a directory counts its children. -/
theorem NamesDir.abstractOf_eq (names : NamesDir store uri base) (tree : Tree store.entries) :
    store.abstractOf uri = .ok ("Directory " ++ base ++ " with " ++
      Nat.repr (store.children base).length ++ " entries") := by
  obtain ⟨normalized, dir, found, isDir⟩ := names
  have keys : store.entries.keys = store.entries.values.map (·.uri) := by
    rw [SortedMap.keys, SortedMap.values, List.map_map]
    refine List.map_congr_left fun pair member => ?_
    exact (tree.keyed (SortedMap.mem_toList_iff.1 member)).symm
  have counted : (store.entries.keys.filter fun key => parent? key = some base).length =
      (store.children base).length := by
    rw [keys, List.filter_map, List.length_map]
    rfl
  refine bind_eq_ok_iff.2 ⟨base, normalized, bind_eq_ok_iff.2
    ⟨dir, entryAt_eq_ok_iff.2 found, ?_⟩⟩
  rw [if_pos isDir, counted]
  rfl

/-! ## Walking down -/

/-- A child lies below its directory. -/
theorem below_of_mem_children (tree : Tree store.entries)
    (member : entry ∈ store.children upper.uri) :
    ∃ lower : Trail, entry.uri = lower.uri ∧ lower.Below upper := by
  obtain ⟨found, isParent⟩ := (mem_children_iff tree).1 member
  obtain ⟨lower, spelled⟩ := tree.exists_trail found
  rw [spelled, Trail.parent?_uri_eq_some_iff] at isParent
  obtain ⟨nonempty, same⟩ := isParent
  exact ⟨lower, spelled, Trail.uri_injective same ▸ Trail.below_parent nonempty⟩

/-- Whatever a walk comes to is an entry below the directory that it starts from. -/
theorem Walked.stays_below (tree : Tree store.entries) (names : NamesDir store uri upper.uri)
    (walked : Walked store uri entry) :
    store.entries.get? entry.uri = some entry ∧
      ∃ lower : Trail, entry.uri = lower.uri ∧ lower.Below upper := by
  induction walked with
  | first listing member =>
    obtain rfl := Except.ok.inj (names.ls_eq.symm.trans listing)
    exact ⟨((mem_children_iff tree).1 member).1, below_of_mem_children tree member⟩
  | deeper _ listing member inductionHypothesis =>
    obtain ⟨found, middle, spelled, middleBelow⟩ := inductionHypothesis
    obtain ⟨_, inner, rfl⟩ := ls_eq_ok_iff.1 listing
    rw [spelled] at inner
    obtain rfl := Except.ok.inj ((normalize_uri middle).symm.trans inner.normalized)
    obtain ⟨lower, lowerSpelled, lowerBelow⟩ := below_of_mem_children tree member
    exact ⟨((mem_children_iff tree).1 member).1, lower, lowerSpelled, lowerBelow.trans middleBelow⟩

/-- A walk comes to every entry below the directory that it starts from. -/
theorem walked_of_below (tree : Tree store.entries) (names : NamesDir store uri upper.uri)
    (found : store.entries.get? lower.uri = some entry) (below : lower.Below upper) :
    Walked store uri entry := by
  -- By induction on the depth, since the directory above is come to before.
  generalize depth : lower.names.length = count
  induction count using Nat.strongRecOn generalizing lower entry with
  | ind count inductionHypothesis =>
    have nonempty := below.names_ne_nil
    have isParent := Trail.parent?_uri nonempty
    have keyed := tree.keyed found
    have member : entry ∈ store.children lower.parent.uri :=
      (mem_children_iff tree).2 ⟨keyed ▸ found, keyed ▸ isParent⟩
    obtain ⟨dir, foundDir, isDir⟩ := tree.parent _ _ _ found isParent
    rcases below.eq_parent_or with rfl | parentBelow
    · exact .first names.ls_eq member
    · have shorter := (Trail.below_parent nonempty).length_lt
      have walkedDir := inductionHypothesis _ (depth ▸ shorter) foundDir parentBelow rfl
      have inner : NamesDir store dir.uri lower.parent.uri := by
        rw [tree.keyed foundDir]
        exact ⟨normalize_uri _, dir, foundDir, isDir⟩
      exact .deeper walkedDir inner.ls_eq member

/-- A walk comes to the entries below the directory that it starts from. -/
theorem walked_iff (tree : Tree store.entries) (names : NamesDir store uri base) :
    Walked store uri entry ↔
      store.entries.get? entry.uri = some entry ∧ isBelow entry.uri base = true := by
  obtain ⟨upper, rfl⟩ := exists_trail_of_normalize names.normalized
  constructor
  · intro walked
    obtain ⟨found, lower, spelled, below⟩ := walked.stays_below tree names
    exact ⟨found, spelled ▸ Trail.isBelow_uri.2 below⟩
  · rintro ⟨found, below⟩
    obtain ⟨lower, spelled⟩ := tree.exists_trail found
    rw [spelled] at found below
    exact walked_of_below tree names found (Trail.isBelow_uri.1 below)

/-! ## What addresses tell -/

/-- The pack of a directory has a path for each file below it. -/
theorem nodup_packed_paths (tree : Tree store.entries) (upper : Trail) :
    ((store.packed upper.uri).map (·.path)).Nodup := by
  have distinct : ((plan upper.uri (store.packed upper.uri)).map (·.1)).Nodup :=
    (pairwise_plan tree upper upper).imp fun less => String.ne_of_lt less
  refine List.Nodup.of_map (placed upper.uri) ?_
  rw [List.map_map]
  rwa [plan, List.map_map] at distinct

/-- A directory other than the root is removed with everything below it. -/
theorem NamesDir.rm_eq (names : NamesDir store uri base) (notRoot : base ≠ scheme) :
    (store.rm uri true).1 = .ok (base :: store.entries.keys.filter (isBelow · base)) := by
  obtain ⟨normalized, dir, found, _⟩ := names
  have canRemove : CanRemove store base true :=
    ⟨decide_eq_false notRoot, ⟨dir, found⟩, fun unasked => by cases unasked⟩
  rw [rm_of_canRemove normalized canRemove]
  rfl

/-- Below a directory, comparing addresses gives what walking gives. -/
structure SubtreeViews (store : Store) (uri base : String) : Prop where
  /-- A walk comes to the entries below the directory. -/
  walked_iff : ∀ entry, Walked store uri entry ↔
    store.entries.get? entry.uri = some entry ∧ isBelow entry.uri base = true
  /-- The files that are listed and packed are those that a walk comes to, each once. -/
  files : ∃ files, store.listResources (some uri) = .ok files ∧
    store.exportPack uri = .ok ⟨base, files.map fun entry =>
      ⟨relative entry.uri base, entry.content⟩⟩ ∧
    (files.map (·.uri)).Nodup ∧ (files.map fun entry => relative entry.uri base).Nodup ∧
    ∀ entry, entry ∈ files ↔ Walked store uri entry ∧ entry.isFile = true
  /-- Behind the directory itself, its removal names what a walk comes to, each once. -/
  removed : base ≠ scheme → ∃ tail, (store.rm uri true).1 = .ok (base :: tail) ∧ tail.Nodup ∧
    ∀ key, key ∈ tail ↔ ∃ entry, Walked store uri entry ∧ entry.uri = key

/-- Parents and beginnings of addresses give the same view of the tree. -/
structure ViewsAgree (store : Store) : Prop where
  /-- Every entry but the root is listed in its parent, and nowhere else. -/
  parent : ∀ key entry, store.entries.get? key = some entry → key ≠ scheme →
    ∃ above, parent? key = some above ∧
      (∃ listed, store.ls above = .ok listed ∧ entry ∈ listed) ∧
      ∀ uri listed, store.ls uri = .ok listed → entry ∈ listed → normalize uri = .ok above
  /-- Listings are in the order of the bytes of the addresses. -/
  ordered : ∀ uri listed, store.ls uri = .ok listed →
    listed.Pairwise fun first second => bytesOf first.uri < bytesOf second.uri
  /-- Every directory can be listed, and its summary counts what is listed. -/
  counted : ∀ uri base, NamesDir store uri base → ∃ listed, store.ls uri = .ok listed ∧
    store.abstractOf uri = .ok ("Directory " ++ base ++ " with " ++
      Nat.repr listed.length ++ " entries")
  /-- Below every directory, comparing addresses gives what walking gives. -/
  subtrees : ∀ uri base, NamesDir store uri base → SubtreeViews store uri base

theorem subtreeViews (tree : Tree store.entries) (names : NamesDir store uri base) :
    SubtreeViews store uri base where
  walked_iff entry := walked_iff tree names
  files := by
    obtain ⟨normalized, dir, found, isDir⟩ := id names
    obtain ⟨upper, rfl⟩ := exists_trail_of_normalize normalized
    refine ⟨store.filesBelow upper.uri, ?_, exportPack_of_dir normalized found isDir, ?_, ?_, ?_⟩
    · exact bind_eq_ok_iff.2 ⟨_, normalized, rfl⟩
    · exact List.pairwise_map.2 ((pairwise_filesBelow tree _).imp String.ne_of_lt)
    · simpa [packed, Function.comp_def] using nodup_packed_paths tree upper
    · intro entry
      rw [mem_filesBelow_iff tree, walked_iff tree names, and_assoc]
      exact and_congr_right fun _ => and_comm
  removed notRoot := by
    refine ⟨_, names.rm_eq notRoot, (SortedMap.nodup_keys _).filter _, fun key => ?_⟩
    rw [List.mem_filter, SortedMap.mem_keys_iff]
    constructor
    · rintro ⟨⟨entry, found⟩, below⟩
      have keyed := tree.keyed found
      exact ⟨entry, (walked_iff tree names).2 ⟨keyed ▸ found, keyed ▸ below⟩, keyed⟩
    · rintro ⟨entry, walked, rfl⟩
      obtain ⟨found, below⟩ := (walked_iff tree names).1 walked
      exact ⟨⟨entry, found⟩, below⟩

/-- Every entry but the root is listed in its parent, and nowhere else. -/
theorem listed_in_parent (tree : Tree store.entries) {key : String}
    (found : store.entries.get? key = some entry) (notRoot : key ≠ scheme) :
    ∃ above, parent? key = some above ∧
      (∃ listed, store.ls above = .ok listed ∧ entry ∈ listed) ∧
      ∀ uri listed, store.ls uri = .ok listed → entry ∈ listed → normalize uri = .ok above := by
  obtain ⟨trail, rfl⟩ := tree.exists_trail found
  have nonempty : trail.names ≠ [] := fun empty => notRoot (Trail.uri_eq_scheme_iff.2 empty)
  have isParent := Trail.parent?_uri nonempty
  have keyed := tree.keyed found
  have names : NamesDir store trail.parent.uri trail.parent.uri :=
    ⟨normalize_uri _, tree.parent _ _ _ found isParent⟩
  refine ⟨trail.parent.uri, isParent, ⟨_, names.ls_eq, ?_⟩, fun uri listed listing member => ?_⟩
  · exact (mem_children_iff tree).2 ⟨keyed ▸ found, keyed ▸ isParent⟩
  · obtain ⟨base, others, rfl⟩ := ls_eq_ok_iff.1 listing
    obtain ⟨_, sameParent⟩ := (mem_children_iff tree).1 member
    rw [keyed, isParent] at sameParent
    rw [others.normalized, Option.some.inj sameParent]

/-- Whatever operations are performed on a new store, with whatever success: parents and
beginnings of addresses give the same view of its tree. -/
theorem views_of_run_agree (start : Tick) (operations : List (Moment × Operation)) :
    ViewsAgree ((empty start).run operations) := by
  have tree := ((Reachable.empty start).run operations).sound.tree
  exact {
    parent := fun key entry => listed_in_parent tree
    ordered := by
      intro uri listed listing
      obtain ⟨base, _, rfl⟩ := ls_eq_ok_iff.1 listing
      exact (pairwise_children tree base).imp bytesOf_lt_iff.2
    counted := fun uri base names => ⟨_, names.ls_eq, names.abstractOf_eq tree⟩
    subtrees := fun uri base => subtreeViews tree }

/-- In the order of bytes, an entry of the root stands between a directory and what is in
it, and another one goes on like the directory. -/
example :
    let store := (empty 0).run [(⟨1, ⟨0⟩⟩, .addResource "viking://a/b" "x"),
      (⟨2, ⟨0⟩⟩, .mkdir "viking://ab"), (⟨3, ⟨0⟩⟩, .mkdir "viking://a!")]
    store.entries.keys = ["viking://", "viking://a", "viking://a!", "viking://a/b", "viking://ab"] ∧
      (store.children "viking://").map (·.uri) = ["viking://a", "viking://a!", "viking://ab"] ∧
      (store.filesBelow "viking://a").map (·.uri) = ["viking://a/b"] := by
  decide

end ContextDb.Store
