import ContextDb.Proofs.Grafting
import ContextDb.Proofs.Pruning
import ContextDb.Proofs.Relinking
import ContextDb.Proofs.Turns
import Mathlib.Data.List.Induction

/-!
# Lists of links that were emptied

When the last link of an entry is removed its list goes, so that an error of unlinking tells
an entry without links from one that only lacks a certain link. When the last entry that an
entry has links to is removed, its list stays and is empty. This is the only origin of empty
lists: they are followed through a run, and exactly where there is one the error is wrong.
-/

namespace ContextDb

open Uri

/-- Whether an operation can give links to an entry, take them along or remove them with
it. -/
def Operation.movesLinks : Operation → Bool
  | .rm .. | .mv .. | .link .. => true
  | .addResource .. | .listResources .. | .mkdir .. | .stat .. | .ls .. | .read ..
  | .abstractOf .. | .find .. | .grep .. | .glob .. | .exportPack .. | .importPack ..
  | .unlink .. | .relations .. | .createSession | .listSessions | .getSession ..
  | .deleteSession .. | .addMessage .. => false

namespace Store

/-- An entry has a list of links, and it is empty. -/
def IsBare (store : Store) (key : String) : Prop :=
  store.relations.get? key = some []

/-- The errors of unlinking tell whether an entry has any links or only lacks the one that is
to go. -/
def TellsLinks (store : Store) : Prop :=
  ∀ source target sourceUri targetUri links, normalize source = .ok sourceUri →
    normalize target = .ok targetUri → store.relationsOf source = .ok links →
    ((store.unlink source target).1 = .error (.notFound ("no relations from " ++ sourceUri)) ↔
        links = []) ∧
      ((store.unlink source target).1 =
          .error (.notFound ("no relation " ++ sourceUri ++ " -> " ++ targetUri)) ↔
        links ≠ [] ∧ ∀ link ∈ links, link.uri ≠ targetUri)

/-- An operation removes all that an entry has links to, but not the entry. -/
inductive Strips (store : Store) : Operation → String → Prop where
  | removal {uri key : String} {recursive : Bool} {gone : List String} {links : List Relation}
      (gave : (store.rm uri recursive).1 = .ok gone) (stays : key ∉ gone)
      (held : store.relations.get? key = some links) (linked : links ≠ [])
      (lost : ∀ link ∈ links, link.uri ∈ gone) :
      Strips store (.rm uri recursive) key

/-- An operation leaves the empty list of an entry, which is at the second address
afterwards. -/
inductive Leaves (store : Store) (moment : Moment) (old : String) : Operation → String → Prop where
  | failure {operation : Operation} {error : Error}
      (failed : (store.step moment operation).1 = .error error) :
      Leaves store moment old operation old
  | removal {uri : String} {recursive : Bool} {gone : List String}
      (gave : (store.rm uri recursive).1 = .ok gone) (stays : old ∉ gone) :
      Leaves store moment old (.rm uri recursive) old
  | move {from_ to_ source destination : String} {entry : Entry}
      (gave : (store.mv from_ to_ moment.now).1 = .ok entry)
      (sourceNormal : normalize from_ = .ok source)
      (destinationNormal : normalize to_ = .ok destination) :
      Leaves store moment old (.mv from_ to_) (grafted source destination old)
  | linking {source : String} (targets : List String) (reason : String)
      (elsewhere : normalize source ≠ .ok old) :
      Leaves store moment old (.link source targets reason) old
  | other {operation : Operation} (other : operation.movesLinks = false) :
      Leaves store moment old operation old

/-- In a run, an entry was stripped of its links and has got none since. -/
inductive LeftBare (start : Tick) : List (Moment × Operation) → String → Prop where
  | stripped {earlier : List (Moment × Operation)} (moment : Moment) {operation : Operation}
      {key : String} (strips : Strips ((empty start).run earlier) operation key) :
      LeftBare start (earlier ++ [(moment, operation)]) key
  | left {earlier : List (Moment × Operation)} {moment : Moment} {operation : Operation}
      {old new : String} (bare : LeftBare start earlier old)
      (leaves : Leaves ((empty start).run earlier) moment old operation new) :
      LeftBare start (earlier ++ [(moment, operation)]) new

variable {store : Store} {source target sourceUri targetUri uri key : String} {recursive : Bool}
  {links : List Relation} {gone : List String}

/-! ## Errors of unlinking -/

/-- What unlinking answers. -/
theorem unlink_fst (sourceNormal : normalize source = .ok sourceUri)
    (targetNormal : normalize target = .ok targetUri) :
    (store.unlink source target).1 =
      match store.relations.get? sourceUri with
      | none => .error (.notFound ("no relations from " ++ sourceUri))
      | some links =>
        if ∃ link ∈ links, link.uri = targetUri then .ok ()
        else .error (.notFound ("no relation " ++ sourceUri ++ " -> " ++ targetUri)) := by
  cases found : store.relations.get? sourceUri with
  | none => rw [unlink, withUri_of_ok sourceNormal, withUri_of_ok targetNormal, found]
  | some links =>
    by_cases present : ∃ link ∈ links, link.uri = targetUri
    · rw [unlink_of_present sourceNormal targetNormal found
        (length_withoutTarget_ne_iff.2 present)]
      exact (if_pos present).symm
    · have absent : (withoutTarget links targetUri).length = links.length :=
        not_not.1 fun different => present (length_withoutTarget_ne_iff.1 different)
      rw [unlink, withUri_of_ok sourceNormal, withUri_of_ok targetNormal, found]
      exact (congrArg Prod.fst (if_pos absent)).trans (if_neg present).symm

/-- The two errors are never the same. -/
theorem noRelations_ne_noRelation (source other target : String) :
    "no relations from " ++ source ≠ "no relation " ++ other ++ " -> " ++ target := by
  intro same
  -- they part at the letter that makes one a plural
  have letters := congrArg String.toList same
  simp [String.toList_append] at letters

/-- The links of an entry with an empty list are none, but no error of unlinking says so. -/
theorem unlink_of_isBare (bare : IsBare store sourceUri)
    (sourceNormal : normalize source = .ok sourceUri)
    (targetNormal : normalize target = .ok targetUri) :
    store.relationsOf source = .ok [] ∧ (store.unlink source target).1 =
      .error (.notFound ("no relation " ++ sourceUri ++ " -> " ++ targetUri)) := by
  rw [relationsOf_of_normalize sourceNormal, unlink_fst sourceNormal targetNormal, bare]
  simp

/-- The errors tell of links what they should exactly if there are no empty lists. -/
theorem tellsLinks_iff (sound : Sound store) : TellsLinks store ↔ ∀ key, ¬ IsBare store key := by
  constructor
  · intro tells key bare
    obtain ⟨entry, found⟩ := sound.linked.sources key [] bare
    obtain ⟨trail, rfl⟩ := sound.tree.exists_trail found
    have normal := normalize_uri trail
    obtain ⟨isHeld, answer⟩ := unlink_of_isBare bare normal normal
    have told := (tells _ _ _ _ _ normal normal isHeld).1.2 rfl
    rw [answer] at told
    exact noRelations_ne_noRelation _ _ _ (Error.notFound.inj (Except.error.inj told)).symm
  · intro noneBare source target sourceUri targetUri links sourceNormal targetNormal isHeld
    rw [relationsOf_of_normalize sourceNormal] at isHeld
    rw [unlink_fst sourceNormal targetNormal]
    cases found : store.relations.get? sourceUri with
    | none =>
      rw [found] at isHeld
      cases isHeld
      simp [noRelations_ne_noRelation]
    | some held =>
      rw [found] at isHeld
      cases isHeld
      have linked : held ≠ [] := by
        rintro rfl
        exact noneBare sourceUri found
      dsimp only
      by_cases present : ∃ link ∈ held, link.uri = targetUri
      · rw [if_pos present]
        obtain ⟨link, member, isTarget⟩ := present
        exact ⟨iff_of_false nofun linked,
          iff_of_false nofun fun told => told.2 link member isTarget⟩
      · rw [if_neg present]
        refine ⟨iff_of_false ?_ linked, iff_of_true rfl ⟨linked, by simpa using present⟩⟩
        simpa using (noRelations_ne_noRelation _ _ _).symm

/-! ## Empty lists after an operation -/

/-- A removal leaves an empty list to what it does not remove if it removes all that the links
of this lead to. -/
theorem isBare_rm_iff (gave : (store.rm uri recursive).1 = .ok gone) :
    IsBare (store.rm uri recursive).2 key ↔
      key ∉ gone ∧ ∃ links, store.relations.get? key = some links ∧
        ∀ link ∈ links, link.uri ∈ gone := by
  rcases rm_cases store uri recursive with ⟨_, _, refused⟩ | ⟨trail, _, canRemove, done⟩
  · rw [refused] at gave
    cases gave
  · rw [done] at gave ⊢
    cases gave
    rw [IsBare, (isPruned_afterRemoval canRemove).links]
    by_cases removed : key ∈ removed store.entries trail.uri
    · simp [removed]
    · simp [removed, List.filter_eq_nil_iff]

/-- A move takes empty lists along. -/
theorem isBare_mv_iff (sound : Sound store) {from_ to_ destination : String} {now : Tick}
    {entry : Entry} (gave : (store.mv from_ to_ now).1 = .ok entry)
    (sourceNormal : normalize from_ = .ok source)
    (destinationNormal : normalize to_ = .ok destination) :
    IsBare (store.mv from_ to_ now).2 key ↔
      ∃ old, IsBare store old ∧ key = grafted source destination old := by
  obtain ⟨_, _, isSource, isDestination, isGraft, _⟩ := isGraft_of_mv sound gave
  cases sourceNormal.symm.trans isSource
  cases destinationNormal.symm.trans isDestination
  have carried : ∀ old held, store.entries.get? old = some held →
      (IsBare (store.mv from_ to_ now).2 (grafted source destination old) ↔ IsBare store old) := by
    intro old held found
    rw [IsBare, isGraft.links old held found]
    simp [IsBare]
  constructor
  · intro bare
    obtain ⟨old, held, found, rfl⟩ := isGraft.noOtherLinks key [] bare
    exact ⟨old, (carried old held found).1 bare, rfl⟩
  · rintro ⟨old, bare, rfl⟩
    obtain ⟨held, found⟩ := sound.linked.sources old [] bare
    exact (carried old held found).2 bare

/-- Where links are set there are links. -/
theorem afterLink_ne_nil {relations : SortedMap (List Relation)} {targets : List String}
    (nonempty : targets ≠ []) (source reason : String) :
    afterLink relations source targets reason ≠ [] := by
  rcases List.eq_nil_or_concat targets with rfl | ⟨earlier, last, rfl⟩
  · exact absurd rfl nonempty
  · rw [afterLink, List.concat_eq_append, List.foldl_append]
    generalize earlier.foldl (setLink reason) _ = links
    intro none
    have uris := map_uri_setLink reason links last
    rw [show setLink reason links last = [] from none] at uris
    split at uris
    · rename_i linked
      rw [← uris] at linked
      cases linked
    · exact absurd uris.symm (by simp)

/-- Linking gives links to one entry, whose list is not empty then. -/
theorem isBare_link_iff {targets : List String} {reason : String}
    (gave : (store.link source targets reason).1 = .ok links) :
    IsBare (store.link source targets reason).2 key ↔
      IsBare store key ∧ normalize source ≠ .ok key := by
  rcases link_cases store source targets reason with
    ⟨_, _, refused⟩ | ⟨sourceUri, targetUris, isSource, _, nonempty, _, done⟩
  · rw [refused] at gave
    cases gave
  · rw [done, IsBare, SortedMap.get?_insert, isSource]
    by_cases same : sourceUri = key
    · subst same
      simp [afterLink_ne_nil nonempty]
    · simp [same, IsBare]

/-- Removing a link leaves no empty list behind, and fails where there is one. -/
theorem isBare_unlink_iff : IsBare (store.unlink source target).2 key ↔ IsBare store key := by
  rcases unlink_cases store source target with
    ⟨_, _, refused⟩ | ⟨sourceUri, targetUri, links, _, _, found, present, done⟩
  · rw [refused]
  · rw [done, IsBare]
    by_cases same : sourceUri = key
    · subst same
      have wasLinked : ¬ IsBare store sourceUri := by
        intro bare
        cases found.symm.trans bare
        exact present rfl
      by_cases nothingLeft : withoutTarget links targetUri = [] <;>
        simp [nothingLeft, wasLinked]
    · by_cases nothingLeft : withoutTarget links targetUri = [] <;>
        simp [nothingLeft, same, IsBare]

/-- An operation that is not about links, and neither removes nor moves entries, leaves all
links. -/
theorem relations_step (sound : Sound store) (moment : Moment) {operation : Operation}
    (other : operation.movesLinks = false)
    (keepsLinks : ∀ source target, operation ≠ .unlink source target) :
    (store.step moment operation).2.relations = store.relations := by
  cases operation with
  | addResource uri content =>
    exact (grown_addResource sound.tree uri content moment.now).relations
  | mkdir uri => exact (grown_mkdir sound.tree uri moment.now).relations
  | importPack uri files => exact (grown_importPack sound.tree uri files moment.now).relations
  | unlink source target => exact absurd rfl (keepsLinks source target)
  | createSession | listSessions | getSession | deleteSession | addMessage =>
    exact (tree_step store moment rfl).2
  | listResources | stat | ls | read | abstractOf | find | grep | glob | exportPack
  | relations => rfl
  | rm | mv | link => cases other

/-- Such an operation leaves all empty lists, and so does removing a link. -/
theorem isBare_step_iff_of_other (sound : Sound store) (moment : Moment) {operation : Operation}
    (other : operation.movesLinks = false) :
    IsBare (store.step moment operation).2 key ↔ IsBare store key := by
  by_cases unlinking : ∃ source target, operation = .unlink source target
  · obtain ⟨source, target, rfl⟩ := unlinking
    exact isBare_unlink_iff
  · have keepsLinks : ∀ source target, operation ≠ .unlink source target :=
      fun source target same => unlinking ⟨source, target, same⟩
    rw [IsBare, relations_step sound moment other keepsLinks, IsBare]

/-- An operation that fails leaves all empty lists. -/
theorem isBare_step_iff_of_error (sound : Sound store) {moment : Moment} {operation : Operation}
    {error : Error} (failed : (store.step moment operation).1 = .error error) :
    IsBare (store.step moment operation).2 key ↔ IsBare store key := by
  rcases refused_of_step sound.tree failed with ⟨_, _, refused⟩ | ⟨⟨uri, files, rfl⟩, _⟩
  · rw [refused]
  · exact isBare_step_iff_of_other sound moment rfl

theorem isBare_of_strips {moment : Moment} {operation : Operation}
    (strips : Strips store operation key) : IsBare (store.step moment operation).2 key := by
  cases strips with
  | removal gave stays held linked lost => exact (isBare_rm_iff gave).2 ⟨stays, _, held, lost⟩

theorem isBare_of_leaves (sound : Sound store) {moment : Moment} {operation : Operation}
    {old : String} (bare : IsBare store old) (leaves : Leaves store moment old operation key) :
    IsBare (store.step moment operation).2 key := by
  cases leaves with
  | failure failed => exact (isBare_step_iff_of_error sound failed).2 bare
  | removal gave stays => exact (isBare_rm_iff gave).2 ⟨stays, [], bare, by simp⟩
  | move gave sourceNormal destinationNormal =>
    exact (isBare_mv_iff sound gave sourceNormal destinationNormal).2 ⟨_, bare, rfl⟩
  | @linking source targets reason elsewhere =>
    cases gave : (store.step moment (.link source targets reason)).1 with
    | error error => exact (isBare_step_iff_of_error sound gave).2 bare
    | ok answer =>
      obtain ⟨links, gave, _⟩ := map_eq_ok_iff.1 gave
      exact (isBare_link_iff gave).2 ⟨bare, elsewhere⟩
  | other other => exact (isBare_step_iff_of_other sound moment other).2 bare

/-- An empty list after an operation was left empty or emptied by it. -/
theorem origin_of_isBare (sound : Sound store) {moment : Moment} {operation : Operation}
    (bare : IsBare (store.step moment operation).2 key) :
    Strips store operation key ∨
      ∃ old, IsBare store old ∧ Leaves store moment old operation key := by
  cases gave : (store.step moment operation).1 with
  | error error =>
    exact .inr ⟨key, (isBare_step_iff_of_error sound gave).1 bare, .failure gave⟩
  | ok answer =>
    cases operation with
    | rm uri recursive =>
      obtain ⟨gone, gave, _⟩ := map_eq_ok_iff.1 gave
      obtain ⟨stays, links, held, lost⟩ := (isBare_rm_iff gave).1 bare
      by_cases wasBare : IsBare store key
      · exact .inr ⟨key, wasBare, .removal gave stays⟩
      · have linked : links ≠ [] := fun none => wasBare (held.trans (congrArg some none))
        exact .inl (.removal gave stays held linked lost)
    | mv from_ to_ =>
      obtain ⟨entry, gave, _⟩ := map_eq_ok_iff.1 gave
      obtain ⟨source, destination, sourceNormal, destinationNormal, _⟩ :=
        isGraft_of_mv sound gave
      obtain ⟨old, wasBare, rfl⟩ :=
        (isBare_mv_iff sound gave sourceNormal destinationNormal).1 bare
      exact .inr ⟨old, wasBare, .move gave sourceNormal destinationNormal⟩
    | link source targets reason =>
      obtain ⟨links, gave, _⟩ := map_eq_ok_iff.1 gave
      obtain ⟨wasBare, elsewhere⟩ := (isBare_link_iff gave).1 bare
      exact .inr ⟨key, wasBare, .linking targets reason elsewhere⟩
    | addResource | listResources | mkdir | stat | ls | read | abstractOf | find | grep | glob
    | exportPack | importPack | unlink | relations | createSession | listSessions | getSession
    | deleteSession | addMessage =>
      exact .inr ⟨key, (isBare_step_iff_of_other sound moment rfl).1 bare, .other rfl⟩

/-! ## Runs -/

/-- The empty lists that a run leads to are those of the entries that it has left bare. -/
theorem isBare_run_iff (start : Tick) (operations : List (Moment × Operation)) :
    IsBare ((empty start).run operations) key ↔ LeftBare start operations key := by
  constructor
  · intro bare
    -- from the last operation back to the removal, along the addresses that the entry has had
    induction operations using List.reverseRecOn generalizing key with
    | nil => cases bare
    | append_singleton earlier last inductionHypothesis =>
      obtain ⟨moment, operation⟩ := last
      rw [run_concat] at bare
      have sound := ((Reachable.empty start).run earlier).sound
      rcases origin_of_isBare sound bare with strips | ⟨old, wasBare, leaves⟩
      · exact .stripped moment strips
      · exact .left (inductionHypothesis wasBare) leaves
  · intro leftBare
    induction leftBare with
    | stripped moment strips =>
      rw [run_concat]
      exact isBare_of_strips strips
    | @left earlier _ _ _ _ _ leaves inductionHypothesis =>
      rw [run_concat]
      exact isBare_of_leaves ((Reachable.empty start).run earlier).sound inductionHypothesis leaves

/-- After a run, exactly the entries that were stripped of their links and have got none since
have an empty list. Exactly if there is none, the errors of unlinking tell whether an entry has
any links; otherwise they say of such an entry, whatever link is to go, that this one is
missing. -/
theorem unlinking_tells_links_iff (start : Tick) (operations : List (Moment × Operation)) :
    (∀ key, ((empty start).run operations).relations.get? key = some [] ↔
        LeftBare start operations key) ∧
      (TellsLinks ((empty start).run operations) ↔ ∀ key, ¬ LeftBare start operations key) ∧
      ∀ source target sourceUri targetUri, LeftBare start operations sourceUri →
        normalize source = .ok sourceUri → normalize target = .ok targetUri →
        ((empty start).run operations).relationsOf source = .ok [] ∧
          (((empty start).run operations).unlink source target).1 =
            .error (.notFound ("no relation " ++ sourceUri ++ " -> " ++ targetUri)) := by
  have sound := ((Reachable.empty start).run operations).sound
  refine ⟨fun key => isBare_run_iff start operations, ?_, ?_⟩
  · rw [tellsLinks_iff sound]
    exact forall_congr' fun key => not_congr (isBare_run_iff start operations)
  · intro source target sourceUri targetUri leftBare sourceNormal targetNormal
    exact unlink_of_isBare ((isBare_run_iff start operations).2 leftBare) sourceNormal targetNormal

/-- The only entry that another one has a link to is removed. -/
def abandoning : List (Moment × Operation) := [
  (⟨1, ⟨0⟩⟩, .addResource "viking://a/b" "1"),
  (⟨2, ⟨0⟩⟩, .addResource "viking://c" "2"),
  (⟨3, ⟨0⟩⟩, .link "viking://a/b" ["viking://c"] "see"),
  (⟨4, ⟨0⟩⟩, .rm "viking://c" false)]

/-- The other one is left bare, also when it has moved, and is said to lack a certain link
only. -/
theorem abandoned_is_said_to_lack_one_link :
    LeftBare 0 (abandoning ++ [(⟨5, ⟨0⟩⟩, .mv "viking://a" "viking://d")]) "viking://d/b" ∧
      ((empty 0).run (abandoning ++ [(⟨5, ⟨0⟩⟩, .mv "viking://a" "viking://d")])).relationsOf
        "viking://d/b" = .ok [] ∧
      (((empty 0).run (abandoning ++ [(⟨5, ⟨0⟩⟩, .mv "viking://a" "viking://d")])).unlink
        "viking://d/b" "viking://c").1 =
          .error (.notFound "no relation viking://d/b -> viking://c") := by
  obtain ⟨left, _, answered⟩ := unlinking_tells_links_iff 0
    (abandoning ++ [(⟨5, ⟨0⟩⟩, .mv "viking://a" "viking://d")])
  have leftBare := (left "viking://d/b").1 (by decide +kernel)
  exact ⟨leftBare, answered "viking://d/b" "viking://c" _ _ leftBare rfl rfl⟩

/-- Removing an entry can leave an empty list behind, and then the error of unlinking does not
say that there are no links. -/
theorem empty_list_is_left_by_removal :
    ((empty 0).run abandoning).relations.get? "viking://a/b" = some [] ∧
      ((empty 0).run abandoning).relationsOf "viking://a/b" = .ok [] ∧
      (((empty 0).run abandoning).unlink "viking://a/b" "viking://c").1 =
        .error (.notFound "no relation viking://a/b -> viking://c") ∧
      ¬ TellsLinks ((empty 0).run abandoning) := by
  have bare : ((empty 0).run abandoning).relations.get? "viking://a/b" = some [] := by
    decide +kernel
  refine ⟨bare, by decide +kernel, by decide +kernel, fun tells => ?_⟩
  exact (tellsLinks_iff ((Reachable.empty 0).run abandoning).sound).1 tells _ bare

end Store

end ContextDb
