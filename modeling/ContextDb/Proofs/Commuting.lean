import ContextDb.Proofs.Containing
import ContextDb.Proofs.Restoring
import Mathlib.Data.List.Perm.Basic

/-!
# Writes to places apart

Two writes to different addresses, of which neither lies below the other, can be made in
either order: each gets the same answer, and the stores differ in dates only. They may share
directories on their way, and either may fail. So a pack whose files go to different
addresses can be unpacked in any order.
-/

namespace ContextDb.Store

open Uri

/-- An entry without its dates. -/
def undated (entry : Entry) : Entry :=
  { entry with createdAt := 0, updatedAt := 0 }

/-- Two stores differ in the dates of their entries only. -/
structure SameButDates (first second : Store) : Prop where
  entries : ∀ key, (first.entries.get? key).map undated = (second.entries.get? key).map undated
  relations : first.relations = second.relations
  sessions : first.sessions = second.sessions

/-- Two addresses are different, and neither lies below the other. -/
structure Apart (first second : String) : Prop where
  different : first ≠ second
  notBelow : isBelow first second = false
  notAbove : isBelow second first = false

/-- The answer to a write, which is an address and a content, but for dates. -/
def answerTo (store : Store) (write : String × String) (now : Tick) : Except Error Entry :=
  (store.addResource write.1 write.2 now).1.map undated

/-- The store after a write. -/
def afterWriting (store : Store) (write : String × String) (now : Tick) : Store :=
  (store.addResource write.1 write.2 now).2

/-- Two writes can be made in either order and at any times: each gets the same answer before
and after the other, and the store is the same in the end but for dates. -/
structure Interchangeable (store : Store) (one another : String × String) : Prop where
  one_answer : ∀ early late later : Tick,
    (store.afterWriting another late).answerTo one later = store.answerTo one early
  another_answer : ∀ early late later : Tick,
    (store.afterWriting one late).answerTo another later = store.answerTo another early
  after : ∀ early late otherEarly otherLate : Tick,
    SameButDates ((store.afterWriting one early).afterWriting another late)
      ((store.afterWriting another otherEarly).afterWriting one otherLate)

/-- The files of a pack go to different addresses. -/
def HaveOwnPlaces (base : String) (files : List PackFile) : Prop :=
  files.Pairwise fun first second => ∀ uri, GoesTo base first uri → ¬ GoesTo base second uri

variable {store other : Store} {entries : SortedMap Entry} {chain : List String}
  {trail first second : Trail} {key content : String} {now later : Tick}

namespace SameButDates

theorem refl (store : Store) : SameButDates store store :=
  ⟨fun _ => rfl, rfl, rfl⟩

theorem symm (same : SameButDates store other) : SameButDates other store :=
  ⟨fun key => (same.entries key).symm, same.relations.symm, same.sessions.symm⟩

end SameButDates

namespace Apart

theorem symm {one another : String} (apart : Apart one another) : Apart another one :=
  ⟨apart.different.symm, apart.notAbove, apart.notBelow⟩

/-- Everything lies below the root. -/
theorem names_ne_nil (apart : Apart first.uri second.uri) : first.names ≠ [] := by
  intro atRoot
  refine Trail.isBelow_uri_eq_false.1 apart.notAbove ⟨second.names, fun empty => ?_, ?_⟩
  · exact apart.different (congrArg Trail.uri (Trail.ext (atRoot.trans empty.symm)))
  · rw [atRoot, List.nil_append]

end Apart

/-! ## Answers -/

/-- There is a file at an address. -/
def isFileAt (entries : SortedMap Entry) (key : String) : Bool :=
  (entries.get? key).any (·.isFile)

/-- There is a directory at an address. -/
def isDirAt (entries : SortedMap Entry) (key : String) : Bool :=
  (entries.get? key).any (·.isDir)

/-- A new directory hides no file. -/
theorem isFileAt_insert_newDir {dir : String} (free : entries.get? dir = none) (now : Tick) :
    isFileAt (entries.insert dir (.newDir dir now)) = isFileAt entries := by
  funext key
  rw [isFileAt, isFileAt, SortedMap.get?_insert]
  by_cases same : dir = key
  · subst same
    rw [if_pos rfl, free]
    rfl
  · rw [if_neg same]

/-- The creation of a chain of directories ends at the first file of the chain. -/
theorem ensureDirs_fst (now : Tick) (chain : List String) (entries : SortedMap Entry) :
    (ensureDirs now chain entries).1 = (chain.find? (isFileAt entries)).elim (.ok ())
      fun file => .error (.alreadyExists (file ++ " is a file")) := by
  induction chain generalizing entries with
  | nil => rfl
  | cons dir deeper inductionHypothesis =>
    cases found : entries.get? dir with
    | none =>
      have noFile : isFileAt entries dir = false := by simp [isFileAt, found]
      simp only [ensureDirs, found, inductionHypothesis, isFileAt_insert_newDir found,
        List.find?_cons, noFile]
    | some existing =>
      cases isFile : existing.isFile with
      | true =>
        have fileHere : isFileAt entries dir = true := by simp [isFileAt, found, isFile]
        simp [ensureDirs, found, isFile, fileHere]
      | false =>
        have noFile : isFileAt entries dir = false := by simp [isFileAt, found, isFile]
        simp [ensureDirs, found, isFile, noFile, inductionHypothesis]

/-- What a write leaves at its address, but for dates. -/
theorem undated_written (tree : Tree entries)
    (notDir : ∀ existing, entries.get? trail.uri = some existing → existing.isDir = false)
    (content : String) (now : Tick) :
    undated (written entries trail.uri content now) = .newFile trail.uri content 0 := by
  rw [written_eq tree notDir]
  rfl

/-- The answer to a write only depends on what is above its address and at it. -/
theorem addResource_answer (tree : Tree store.entries) (nonempty : trail.names ≠ [])
    (content : String) (now : Tick) :
    store.answerTo (trail.uri, content) now =
      ((ancestors trail.uri).find? (isFileAt store.entries)).elim
        (if isDirAt store.entries trail.uri then
          .error (.alreadyExists (trail.uri ++ " is a directory"))
        else .ok (.newFile trail.uri content 0))
        fun file => .error (.alreadyExists (file ++ " is a file")) := by
  unfold answerTo
  have created := ensureDirs_fst now (ancestors trail.uri) store.entries
  cases fileAbove : (ancestors trail.uri).find? (isFileAt store.entries) with
  | some file =>
    rw [fileAbove] at created
    rw [addResource_of_file_above tree nonempty created]
    rfl
  | none =>
    rw [fileAbove] at created
    have clear := ensureDirs_eq_ok_iff.1 created
    cases dirHere : isDirAt store.entries trail.uri with
    | true =>
      obtain ⟨dir, found, isDir⟩ := (Option.any_eq_true _ _).1 dirHere
      rw [addResource_of_dir tree nonempty found isDir]
      rfl
    | false =>
      have notDir : ∀ existing, store.entries.get? trail.uri = some existing →
          existing.isDir = false := by
        intro existing found
        simpa [isDirAt, found] using dirHere
      rw [addResource_of_clear tree nonempty clear notDir]
      exact congrArg Except.ok (undated_written tree notDir content now)

/-! ## The answer after another write -/

/-- A write only adds to the tree. -/
theorem grown_afterWriting (tree : Tree store.entries) (write : String × String) (now : Tick) :
    Grown store (store.afterWriting write now) :=
  grown_addResource tree write.1 write.2 now

/-- A write changes nothing at a place that is neither its address nor above it. -/
theorem get?_afterWriting_of_apart (tree : Tree store.entries) (different : first.uri ≠ key)
    (notAbove : isBelow first.uri key = false) (content : String) (now : Tick) :
    (store.afterWriting (first.uri, content) now).entries.get? key = store.entries.get? key := by
  unfold afterWriting
  rcases addResource_trail_cases tree first content now with
    ⟨_, refused⟩ | ⟨_, _, _, _, _, planted⟩
  · rw [refused]
  · refine planted.elsewhere key (Ne.symm different) fun isAncestor => ?_
    cases notAbove.symm.trans isAncestor.isBelow

/-- A write puts a file at its address only. -/
theorem isFileAt_afterWriting (tree : Tree store.entries) (different : first.uri ≠ key)
    (content : String) (now : Tick) :
    isFileAt (store.afterWriting (first.uri, content) now).entries key =
      isFileAt store.entries key := by
  unfold afterWriting
  rcases addResource_trail_cases tree first content now with
    ⟨_, refused⟩ | ⟨_, _, _, _, _, planted⟩
  · rw [refused]
  · by_cases made : IsAncestor key first.uri ∧ store.entries.get? key = none
    · rw [isFileAt, isFileAt, planted.above key made.1 made.2, made.2]
      rfl
    · rw [isFileAt, isFileAt, planted.elsewhere key (Ne.symm different) fun isAncestor =>
        Option.ne_none_iff_exists'.1 fun free => made ⟨isAncestor, free⟩]

/-- A write gets the same answer after another one that is apart from it. -/
theorem answerTo_afterWriting (tree : Tree store.entries) (apart : Apart first.uri second.uri)
    (content text : String) (early late later : Tick) :
    (store.afterWriting (first.uri, content) late).answerTo (second.uri, text) later =
      store.answerTo (second.uri, text) early := by
  have treeAfter := (grown_afterWriting tree (first.uri, content) late).tree
  have sameFiles : ∀ above ∈ ancestors second.uri,
      isFileAt (store.afterWriting (first.uri, content) late).entries above =
        isFileAt store.entries above := by
    intro above member
    refine isFileAt_afterWriting tree ?_ content late
    rintro rfl
    have below := Trail.isBelow_uri.2 (Trail.uri_mem_ancestors_iff.1 member)
    cases apart.notAbove.symm.trans below
  have sameHere : isDirAt (store.afterWriting (first.uri, content) late).entries second.uri =
      isDirAt store.entries second.uri := by
    rw [isDirAt, get?_afterWriting_of_apart tree apart.different apart.notBelow, isDirAt]
  rw [addResource_answer treeAfter apart.symm.names_ne_nil,
    addResource_answer tree apart.symm.names_ne_nil, sameHere, ← List.head?_filter,
    ← List.head?_filter, List.filter_congr sameFiles]

/-! ## The store after both writes -/

/-- What is where after a write, but for dates. -/
theorem undated_afterWrite (tree : Tree entries) (admits : Admits entries trail.uri)
    (content : String) (now : Tick) (key : String) :
    ((afterWrite entries trail.uri content now).get? key).map undated =
      if trail.uri = key then some (.newFile trail.uri content 0)
      else ((entries.get? key).map undated).or
        (if key ∈ ancestors trail.uri then some (.newDir key 0) else none) := by
  obtain ⟨clear, notDir⟩ := (admits_uri_iff tree).1 admits
  rw [get?_afterWrite clear]
  split
  · rw [Option.map_some, undated_written tree notDir]
  · cases entries.get? key with
    | some existing => rfl
    | none => split <;> rfl

/-- The store after a write that is admitted. -/
theorem afterWriting_of_admits (tree : Tree store.entries) (nonempty : trail.names ≠ [])
    (admits : Admits store.entries trail.uri) (content : String) (now : Tick) :
    store.afterWriting (trail.uri, content) now =
      { store with entries := afterWrite store.entries trail.uri content now } := by
  rw [afterWriting, addResource_of_admits tree nonempty admits]

/-- A write that is not admitted changes nothing. -/
theorem afterWriting_of_not_admits (tree : Tree store.entries) (nonempty : trail.names ≠ [])
    (blocked : ¬ Admits store.entries trail.uri) (content : String) (now : Tick) :
    store.afterWriting (trail.uri, content) now = store := by
  obtain ⟨_, refused⟩ := addResource_of_not_admits tree nonempty blocked content now
  rw [afterWriting, refused]

/-- The time of a write only shows in dates. -/
theorem sameButDates_afterWriting (tree : Tree store.entries) (nonempty : trail.names ≠ [])
    (content : String) (now later : Tick) :
    SameButDates (store.afterWriting (trail.uri, content) now)
      (store.afterWriting (trail.uri, content) later) := by
  by_cases admits : Admits store.entries trail.uri
  · rw [afterWriting_of_admits tree nonempty admits, afterWriting_of_admits tree nonempty admits]
    refine ⟨fun key => ?_, rfl, rfl⟩
    rw [undated_afterWrite tree admits, undated_afterWrite tree admits]
  · rw [afterWriting_of_not_admits tree nonempty admits,
      afterWriting_of_not_admits tree nonempty admits]
    exact .refl store

/-- After a write, a place that is apart from it admits a file exactly if it did before. -/
theorem admits_afterWriting_iff (tree : Tree store.entries) (apart : Apart first.uri second.uri)
    (content : String) (now : Tick) :
    Admits (store.afterWriting (first.uri, content) now).entries second.uri ↔
      Admits store.entries second.uri := by
  by_cases admits : Admits store.entries first.uri
  · rw [afterWriting_of_admits tree apart.names_ne_nil admits]
    refine (admits_afterWrite_iff tree admits content now).trans (and_iff_left ?_)
    exact ⟨Trail.isBelow_uri_eq_false.1 apart.notAbove, Trail.isBelow_uri_eq_false.1 apart.notBelow⟩
  · rw [afterWriting_of_not_admits tree apart.names_ne_nil admits]

/-- A write that is refused can be left out before and after one that is apart from it. -/
theorem sameButDates_of_refused (tree : Tree store.entries) (apart : Apart first.uri second.uri)
    (refused : ¬ Admits store.entries second.uri) (content text : String)
    (early late otherEarly otherLate : Tick) :
    SameButDates
      ((store.afterWriting (first.uri, content) early).afterWriting (second.uri, text) late)
      ((store.afterWriting (second.uri, text) otherEarly).afterWriting (first.uri, content)
        otherLate) := by
  have stillRefused := mt (admits_afterWriting_iff tree apart content early).1 refused
  have treeAfter := (grown_afterWriting tree (first.uri, content) early).tree
  rw [afterWriting_of_not_admits treeAfter apart.symm.names_ne_nil stillRefused,
    afterWriting_of_not_admits tree apart.symm.names_ne_nil refused]
  exact sameButDates_afterWriting tree apart.names_ne_nil content early otherLate

/-- What is where after two writes apart that are admitted, but for dates. -/
theorem undated_afterWriting_twice (tree : Tree store.entries)
    (apart : Apart first.uri second.uri) (admitsFirst : Admits store.entries first.uri)
    (admitsSecond : Admits store.entries second.uri) (content text : String) (early late : Tick)
    (key : String) :
    (((store.afterWriting (first.uri, content) early).afterWriting (second.uri, text)
        late).entries.get? key).map undated =
      if second.uri = key then some (.newFile second.uri text 0)
      else if first.uri = key then some (.newFile first.uri content 0)
      else ((store.entries.get? key).map undated).or
        (if key ∈ ancestors first.uri ∨ key ∈ ancestors second.uri then some (.newDir key 0)
          else none) := by
  have treeAfter := (grown_afterWriting tree (first.uri, content) early).tree
  have admitsAfter := (admits_afterWriting_iff tree apart content early).2 admitsSecond
  rw [afterWriting_of_admits treeAfter apart.symm.names_ne_nil admitsAfter]
  refine (undated_afterWrite treeAfter admitsAfter text late key).trans ?_
  rw [afterWriting_of_admits tree apart.names_ne_nil admitsFirst,
    undated_afterWrite tree admitsFirst]
  split
  · rfl
  · split
    · rfl
    · by_cases aboveFirst : key ∈ ancestors first.uri
      · simp [aboveFirst]
      · simp [aboveFirst]

/-- Two writes apart that are admitted leave the same in either order. -/
theorem sameButDates_of_admits (tree : Tree store.entries) (apart : Apart first.uri second.uri)
    (admitsFirst : Admits store.entries first.uri)
    (admitsSecond : Admits store.entries second.uri) (content text : String)
    (early late otherEarly otherLate : Tick) :
    SameButDates
      ((store.afterWriting (first.uri, content) early).afterWriting (second.uri, text) late)
      ((store.afterWriting (second.uri, text) otherEarly).afterWriting (first.uri, content)
        otherLate) := by
  have grownTwice : ∀ one another early late,
      Grown store ((store.afterWriting one early).afterWriting another late) := by
    intro one another early late
    have grown := grown_afterWriting tree one early
    exact grown.trans (grown_afterWriting grown.tree another late)
  have forward := grownTwice (first.uri, content) (second.uri, text) early late
  have backward := grownTwice (second.uri, text) (first.uri, content) otherEarly otherLate
  refine ⟨fun key => ?_, forward.relations.trans backward.relations.symm,
    forward.sessions.trans backward.sessions.symm⟩
  rw [undated_afterWriting_twice tree apart admitsFirst admitsSecond,
    undated_afterWriting_twice tree apart.symm admitsSecond admitsFirst]
  by_cases atSecond : second.uri = key
  · have notFirst : first.uri ≠ key := fun atFirst => apart.different (atFirst.trans atSecond.symm)
    rw [if_pos atSecond, if_neg notFirst, if_pos atSecond]
  · rw [if_neg atSecond, if_neg atSecond]
    simp only [or_comm]

/-- Only the normal form of the address counts for what a write leaves. -/
theorem afterWriting_of_normalize {uri : String} (normalized : normalize uri = .ok trail.uri)
    (store : Store) (content : String) :
    store.afterWriting (uri, content) = store.afterWriting (trail.uri, content) :=
  funext fun now => congrArg Prod.snd (addResource_of_normalize normalized content now)

/-- Only the normal form of the address counts for the answer to a write. -/
theorem answerTo_of_normalize {uri : String} (normalized : normalize uri = .ok trail.uri)
    (store : Store) (content : String) :
    store.answerTo (uri, content) = store.answerTo (trail.uri, content) :=
  funext fun now => congrArg (fun outcome => outcome.1.map undated)
    (addResource_of_normalize normalized content now)

/-- Two writes apart can be made in either order. -/
theorem interchangeable_of_apart (tree : Tree store.entries) {one another u v : String}
    (isFirst : normalize one = .ok u) (isSecond : normalize another = .ok v) (apart : Apart u v)
    (content text : String) : Interchangeable store (one, content) (another, text) := by
  obtain ⟨first, rfl⟩ := exists_trail_of_normalize isFirst
  obtain ⟨second, rfl⟩ := exists_trail_of_normalize isSecond
  constructor
  · intro early late later
    simp only [afterWriting_of_normalize isSecond, answerTo_of_normalize isFirst]
    exact answerTo_afterWriting tree apart.symm text content early late later
  · intro early late later
    simp only [afterWriting_of_normalize isFirst, answerTo_of_normalize isSecond]
    exact answerTo_afterWriting tree apart content text early late later
  · intro early late otherEarly otherLate
    simp only [afterWriting_of_normalize isFirst, afterWriting_of_normalize isSecond]
    by_cases admitsSecond : Admits store.entries second.uri
    · by_cases admitsFirst : Admits store.entries first.uri
      · exact sameButDates_of_admits tree apart admitsFirst admitsSecond content text early late
          otherEarly otherLate
      · exact (sameButDates_of_refused tree apart.symm admitsFirst text content otherEarly otherLate
          early late).symm
    · exact sameButDates_of_refused tree apart admitsSecond content text early late otherEarly
        otherLate

/-! ## Packs -/

variable {base : String} {files others : List PackFile} {planned : List (String × String)}

/-- Fewer files fit if more do, in whatever order. -/
theorem Fit.of_subset {uris fewer : List String} (fit : Fit entries uris) (subset : fewer ⊆ uris) :
    Fit entries fewer where
  admitted := fun uri member => fit.admitted uri (subset member)
  apart := fun lower lowerMember upper upperMember =>
    fit.apart lower (subset lowerMember) upper (subset upperMember)

/-- The same files in another order have the same plan in another order. -/
theorem exists_perm_of_accepted (perm : others.Perm files)
    (accepted : files.mapM (packDestination base) = .ok planned) :
    ∃ otherPlan, others.mapM (packDestination base) = .ok otherPlan ∧ otherPlan.Perm planned := by
  obtain ⟨otherPlan, pairs, permuted⟩ :=
    List.perm_comp_forall₂ perm (mapM_eq_ok_iff.1 accepted)
  exact ⟨otherPlan, mapM_eq_ok_iff.2 pairs, permuted⟩

/-- Files that go to different addresses have a plan without repetition. -/
theorem nodup_of_haveOwnPlaces (own : HaveOwnPlaces base files)
    (accepted : files.mapM (packDestination base) = .ok planned) : (planned.map (·.1)).Nodup := by
  induction mapM_eq_ok_iff.1 accepted with
  | nil => exact .nil
  | @cons first pair others rest here there inductionHypothesis =>
    obtain ⟨ownHere, ownRest⟩ := List.pairwise_cons.1 own
    have acceptedRest := mapM_eq_ok_iff.2 there
    refine List.nodup_cons.2 ⟨fun again => ?_, inductionHypothesis ownRest acceptedRest⟩
    obtain ⟨other, member, goesThere⟩ := (mem_planned_iff acceptedRest).1 again
    exact ownHere other member pair.1 (packDestination_eq_ok_iff.1 here).1 goesThere

/-- Unpacking succeeds exactly if there is a file, all addresses are accepted and the files
fit. -/
theorem importPack_eq_ok_iff (tree : Tree store.entries) (target : String)
    (files : List PackFile) (now : Tick) :
    (∃ uris, (store.importPack target files now).1 = .ok uris) ↔
      files ≠ [] ∧ ∃ base planned, normalize target = .ok base ∧
        files.mapM (packDestination base) = .ok planned ∧
        Fit store.entries (planned.map (·.1)) := by
  cases normalized : normalize target with
  | error error => simp [importPack, withUri_of_error normalized]
  | ok base =>
    obtain ⟨directory, rfl⟩ := exists_trail_of_normalize normalized
    by_cases empty : files = []
    · subst empty
      simp [importPack, withUri_of_ok normalized]
    · cases accepted : files.mapM (packDestination directory.uri) with
      | error error => simp [importPack, withUri_of_ok normalized, empty, accepted]
      | ok planned =>
        rw [importPack_of_accepted normalized empty accepted,
          writeAll_eq_ok_iff tree (spelled_of_accepted accepted)]
        simp [empty, accepted]

/-- Unpacking that succeeds does so in any order of the files. -/
theorem importPack_succeeds_of_perm (tree : Tree store.entries) {target : String}
    (perm : others.Perm files) (done : ∃ uris, (store.importPack target files now).1 = .ok uris)
    (later : Tick) : ∃ uris, (store.importPack target others later).1 = .ok uris := by
  obtain ⟨nonempty, base, planned, normalized, accepted, fit⟩ :=
    (importPack_eq_ok_iff tree target files now).1 done
  obtain ⟨otherPlan, otherAccepted, permuted⟩ := exists_perm_of_accepted perm accepted
  refine (importPack_eq_ok_iff tree target others later).2 ⟨fun empty => ?_, base, otherPlan,
    normalized, otherAccepted, fit.of_subset (permuted.map _).subset⟩
  exact nonempty (List.nil_perm.1 (empty ▸ perm))

/-- What is there after a pack has been unpacked only depends on its files and not on their
order, but for dates. -/
theorem undated_of_unpacked (tree : Tree entries) {after afterOther : SortedMap Entry}
    {otherPlan : List (String × String)} (spelled : Spelled (planned.map (·.1)))
    (fit : Fit entries (planned.map (·.1))) (permuted : otherPlan.Perm planned)
    (unpacked : Unpacked entries after planned now)
    (otherUnpacked : Unpacked entries afterOther otherPlan later) (key : String) :
    (after.get? key).map undated = (afterOther.get? key).map undated := by
  by_cases isPlanned : key ∈ planned.map (·.1)
  · obtain ⟨⟨_, content⟩, member, rfl⟩ := List.mem_map.1 isPlanned
    obtain ⟨trail, rfl, _⟩ := spelled _ isPlanned
    have notDir := (fit.admitted _ isPlanned).here
    rw [unpacked.files _ content member, otherUnpacked.files _ content (permuted.mem_iff.2 member),
      Option.map_some, Option.map_some, undated_written tree notDir, undated_written tree notDir]
  · have notPlanned := fun member => isPlanned ((permuted.map _).subset member)
    have sameDirs : key ∈ planned.flatMap (fun file => ancestors file.1) ↔
        key ∈ otherPlan.flatMap fun file => ancestors file.1 := by
      simp only [List.mem_flatMap, permuted.mem_iff]
    rw [unpacked.others key isPlanned, otherUnpacked.others key notPlanned]
    simp only [sameDirs]
    cases entries.get? key with
    | some existing => rfl
    | none => split <;> rfl

/-- A pack whose files go to different addresses leaves the same in any order. -/
theorem sameButDates_of_perm (tree : Tree store.entries) {target : String}
    (own : ∀ base, normalize target = .ok base → HaveOwnPlaces base files)
    (perm : others.Perm files) (done : ∃ uris, (store.importPack target files now).1 = .ok uris)
    (later : Tick) :
    SameButDates (store.importPack target files now).2
      (store.importPack target others later).2 := by
  obtain ⟨nonempty, base, planned, normalized, accepted, fit⟩ :=
    (importPack_eq_ok_iff tree target files now).1 done
  obtain ⟨otherPlan, otherAccepted, permuted⟩ := exists_perm_of_accepted perm accepted
  have otherNonempty : others ≠ [] := fun empty => nonempty (List.nil_perm.1 (empty ▸ perm))
  have distinct := nodup_of_haveOwnPlaces (own base normalized) accepted
  have samePlaces := permuted.map (·.1)
  obtain ⟨directory, rfl⟩ := exists_trail_of_normalize normalized
  have spelled := spelled_of_accepted accepted
  obtain ⟨after, written, unpacked⟩ := writeAll_of_fit tree spelled distinct fit now
  obtain ⟨afterOther, otherWritten, otherUnpacked⟩ :=
    writeAll_of_fit tree (spelled_of_accepted otherAccepted) (samePlaces.nodup_iff.2 distinct)
      (fit.of_subset samePlaces.subset) later
  have grown := grown_writeAll tree planned now
  have otherGrown := grown_writeAll tree otherPlan later
  rw [importPack_of_accepted normalized nonempty accepted,
    importPack_of_accepted normalized otherNonempty otherAccepted]
  rw [written] at grown ⊢
  rw [otherWritten] at otherGrown ⊢
  exact ⟨undated_of_unpacked tree spelled fit permuted unpacked otherUnpacked,
    grown.relations.trans otherGrown.relations.symm,
    grown.sessions.trans otherGrown.sessions.symm⟩

/-- In a reachable store, two writes to addresses apart can be made in either order, whether
they succeed or fail. A pack whose files go to different addresses can be unpacked in any
order: it succeeds in all orders or in none, and leaves the same but for dates. -/
theorem writes_apart_commute (reachable : Reachable store) :
    (∀ one another u v, normalize one = .ok u → normalize another = .ok v → Apart u v →
      ∀ content text, Interchangeable store (one, content) (another, text)) ∧
    ∀ target files others, (∀ base, normalize target = .ok base → HaveOwnPlaces base files) →
      others.Perm files → ∀ now later,
        ((∃ uris, (store.importPack target files now).1 = .ok uris) ↔
          ∃ uris, (store.importPack target others later).1 = .ok uris) ∧
        ((∃ uris, (store.importPack target files now).1 = .ok uris) →
          SameButDates (store.importPack target files now).2
            (store.importPack target others later).2) := by
  have tree := reachable.sound.tree
  constructor
  · intro one another u v isFirst isSecond apart content text
    exact interchangeable_of_apart tree isFirst isSecond apart content text
  · intro target files others own perm now later
    refine ⟨⟨fun done => ?_, fun done => ?_⟩, fun done => ?_⟩
    · exact importPack_succeeds_of_perm tree perm done later
    · exact importPack_succeeds_of_perm tree perm.symm done now
    · exact sameButDates_of_perm tree own perm done later

/-- Two files below one directory, for which it has to be made. -/
def siblings : List PackFile :=
  [⟨"a", "1"⟩, ⟨"b/", "2"⟩]

/-- Either of the siblings can be the one that the directory is made for. -/
theorem siblings_in_either_order :
    Interchangeable shelf ("viking://new/a", "1") ("viking://new/b/", "2") ∧
    (∃ uris, (shelf.importPack "viking://new" siblings 3).1 = .ok uris) ∧
    SameButDates (shelf.importPack "viking://new" siblings 3).2
      (shelf.importPack "viking://new" siblings.reverse 4).2 := by
  have reachable : Reachable shelf := (Reachable.empty 0).run _
  obtain ⟨writes, packs⟩ := writes_apart_commute reachable
  have done : (shelf.importPack "viking://new" siblings 3).1 =
      .ok ["viking://new/a", "viking://new/b"] := by decide +kernel
  have own : ∀ base, normalize "viking://new" = .ok base → HaveOwnPlaces base siblings := by
    intro base normalized
    obtain rfl : "viking://new" = base :=
      Except.ok.inj (Eq.trans (by decide +kernel) normalized)
    refine List.pairwise_pair.2 fun uri first second => ?_
    have goesFirst : GoesTo "viking://new" ⟨"a", "1"⟩ "viking://new/a" := by
      unfold GoesTo
      decide +kernel
    have goesSecond : GoesTo "viking://new" ⟨"b/", "2"⟩ "viking://new/b" := by
      unfold GoesTo
      decide +kernel
    have same := (Except.ok.inj (goesFirst.symm.trans first)).trans
      (Except.ok.inj (second.symm.trans goesSecond))
    exact absurd same (by decide)
  refine ⟨?_, ⟨_, done⟩, ?_⟩
  · exact writes _ _ "viking://new/a" "viking://new/b" (by decide +kernel) (by decide +kernel)
      ⟨by decide, by decide +kernel, by decide +kernel⟩ "1" "2"
  · exact (packs _ _ _ own siblings.reverse_perm 3 4).2 ⟨_, done⟩

end ContextDb.Store
