import ContextDb.Proofs.Moving
import ContextDb.Proofs.Removing
import ContextDb.Proofs.Traversal
import ContextDb.Store.Links

/-!
# Links between entries

`Linked` says that no link dangles and none is there twice. Linking checks it,
removing filters both ends, and moving renames both ends; that the renaming makes
no two links alike rests on the shape of the tree.
-/

namespace ContextDb

open Uri Store

/-- What holds of the links of a store at all times. -/
structure Linked (entries : SortedMap Entry) (relations : SortedMap (List Relation)) : Prop where
  /-- Only entries have links. -/
  sources : Covered relations entries
  /-- Links lead to entries. -/
  targets : ∀ source links, relations.get? source = some links →
    ∀ link ∈ links, ∃ entry, entries.get? link.uri = some entry
  /-- No two links of an entry lead to the same one. -/
  distinct : ∀ source links, relations.get? source = some links → (links.map (·.uri)).Nodup

namespace Linked

variable {entries after : SortedMap Entry} {relations : SortedMap (List Relation)}
  {source : String} {links : List Relation}

theorem empty (entries : SortedMap Entry) : Linked entries .empty where
  sources := by simp [Covered]
  targets := by simp
  distinct := by simp

/-- Links stay intact as long as no entry goes. -/
theorem grow (linked : Linked entries relations) (covered : Covered entries after) :
    Linked after relations where
  sources := linked.sources.trans covered
  targets := by
    intro source links found link member
    obtain ⟨entry, foundEntry⟩ := linked.targets source links found link member
    exact covered link.uri entry foundEntry
  distinct := linked.distinct

/-- The links of an entry can be replaced by others to existing entries. -/
theorem insert (linked : Linked entries relations)
    (sourceFound : ∃ entry, entries.get? source = some entry)
    (targetsFound : ∀ link ∈ links, ∃ entry, entries.get? link.uri = some entry)
    (distinct : (links.map (·.uri)).Nodup) : Linked entries (relations.insert source links) where
  sources := by
    intro key held found
    rw [SortedMap.get?_insert] at found
    split at found
    · rename_i same
      exact same ▸ sourceFound
    · exact linked.sources key held found
  targets := by
    intro key held found
    rw [SortedMap.get?_insert] at found
    split at found
    · cases found
      exact targetsFound
    · exact linked.targets key held found
  distinct := by
    intro key held found
    rw [SortedMap.get?_insert] at found
    split at found
    · cases found
      exact distinct
    · exact linked.distinct key held found

/-- An entry can lose its links. -/
theorem erase (linked : Linked entries relations) (source : String) :
    Linked entries (relations.erase source) := by
  have kept : ∀ {key held}, (relations.erase source).get? key = some held →
      relations.get? key = some held := by
    intro key held found
    rw [SortedMap.get?_erase] at found
    split at found
    · cases found
    · exact found
  exact ⟨fun key held found => linked.sources key held (kept found),
    fun key held found => linked.targets key held (kept found),
    fun key held found => linked.distinct key held (kept found)⟩

end Linked

namespace Store

variable {store : Store} {entries : SortedMap Entry} {relations : SortedMap (List Relation)}
  {trail : Trail}

/-! ## Linking and unlinking -/

/-- Setting a link adds its target unless it is linked already. -/
theorem map_uri_setLink (reason : String) (links : List Relation) (target : String) :
    (setLink reason links target).map (·.uri) =
      if target ∈ links.map (·.uri) then links.map (·.uri) else links.map (·.uri) ++ [target] := by
  unfold setLink
  by_cases linked : links.any (·.uri = target) = true
  · have member : target ∈ links.map (·.uri) := by simpa using linked
    rw [if_pos linked, if_pos member, List.map_map]
    refine List.map_congr_left fun link _ => ?_
    by_cases same : link.uri = target <;> simp [same]
  · have notMember : target ∉ links.map (·.uri) := by simpa using linked
    rw [if_neg linked, if_neg notMember]
    simp

/-- Setting links keeps the targets different. -/
theorem nodup_foldl_setLink (reason : String) {links : List Relation} (targets : List String)
    (distinct : (links.map (·.uri)).Nodup) :
    ((targets.foldl (setLink reason) links).map (·.uri)).Nodup := by
  induction targets generalizing links with
  | nil => exact distinct
  | cons target others inductionHypothesis =>
    apply inductionHypothesis
    rw [map_uri_setLink]
    split
    · exact distinct
    · rename_i notMember
      refine List.nodup_append.2 ⟨distinct, by simp, ?_⟩
      rintro uri member _ single rfl
      exact notMember (List.mem_singleton.1 single ▸ member)

/-- Setting links leads nowhere but to the given targets and where links led before. -/
theorem mem_foldl_setLink {reason uri : String} {links : List Relation} {targets : List String}
    (member : uri ∈ (targets.foldl (setLink reason) links).map (·.uri)) :
    uri ∈ targets ∨ uri ∈ links.map (·.uri) := by
  induction targets generalizing links with
  | nil => exact .inr member
  | cons target others inductionHypothesis =>
    rcases inductionHypothesis member with later | here
    · exact .inl (List.mem_cons_of_mem _ later)
    · rw [map_uri_setLink] at here
      split at here
      · exact .inr here
      · rcases List.mem_append.1 here with before | new
        · exact .inr before
        · exact .inl (List.mem_singleton.1 new ▸ List.mem_cons_self)

/-- The links of an entry after linking it to others. -/
def afterLink (relations : SortedMap (List Relation)) (source : String) (targets : List String)
    (reason : String) : List Relation :=
  targets.foldl (setLink reason) ((relations.get? source).getD [])

/-- If all entries exist, the links are set one after another. -/
theorem link_of_found {source sourceUri : String} {targets targetUris : List String}
    (sourceNormal : normalize source = .ok sourceUri)
    (targetsNormal : targets.mapM normalize = .ok targetUris) (nonempty : targetUris ≠ [])
    (found : ∀ uri ∈ sourceUri :: targetUris, ∃ entry, store.entries.get? uri = some entry)
    (reason : String) :
    store.link source targets reason =
      (.ok (afterLink store.relations sourceUri targetUris reason),
        { store with
          relations := store.relations.insert sourceUri
            (afterLink store.relations sourceUri targetUris reason) }) := by
  have allFound : (sourceUri :: targetUris).find? (fun uri => !store.entries.contains uri) =
      none := by
    refine List.find?_eq_none.2 fun uri member => ?_
    simpa using SortedMap.contains_iff.2 (found uri member)
  rw [link, withUri_of_ok sourceNormal, targetsNormal]
  simp only [List.isEmpty_iff, nonempty, if_false, allFound]
  rfl

/-- Linking is refused, or all entries exist and the links are set one after another. -/
theorem link_cases (store : Store) (source : String) (targets : List String) (reason : String) :
    Refused store (store.link source targets reason) ∨
      ∃ sourceUri targetUris, normalize source = .ok sourceUri ∧
        targets.mapM normalize = .ok targetUris ∧ targetUris ≠ [] ∧
        (∀ uri ∈ sourceUri :: targetUris, ∃ entry, store.entries.get? uri = some entry) ∧
        store.link source targets reason =
          (.ok (afterLink store.relations sourceUri targetUris reason),
            { store with
              relations := store.relations.insert sourceUri
                (afterLink store.relations sourceUri targetUris reason) }) := by
  cases sourceNormal : normalize source with
  | error error =>
    rw [link, withUri_of_error sourceNormal]
    exact .inl (refused_of_normalize sourceNormal)
  | ok sourceUri =>
    cases targetsNormal : targets.mapM normalize with
    | error error =>
      rw [link, withUri_of_ok sourceNormal, targetsNormal]
      obtain ⟨target, _, failed⟩ := exists_of_mapM_eq_error targetsNormal
      exact .inl (refused_of_normalize failed)
    | ok targetUris =>
      by_cases nonempty : targetUris = []
      · rw [link, withUri_of_ok sourceNormal, targetsNormal]
        exact .inl ⟨.invalidArgument "no target URIs given", by simp [Error.code],
          by simp [nonempty]⟩
      · cases missing : (sourceUri :: targetUris).find? (!store.entries.contains ·) with
        | some uri =>
          rw [link, withUri_of_ok sourceNormal, targetsNormal]
          exact .inl ⟨.notFound uri, by simp [Error.code], by simp [nonempty, missing]⟩
        | none =>
          have found : ∀ uri ∈ sourceUri :: targetUris,
              ∃ entry, store.entries.get? uri = some entry := by
            intro uri member
            have present := List.find?_eq_none.1 missing uri member
            exact SortedMap.contains_iff.1 (by simpa using present)
          exact .inr ⟨sourceUri, targetUris, rfl, rfl, nonempty, found,
            link_of_found sourceNormal targetsNormal nonempty found reason⟩

/-- The links of an entry that do not lead to a target. -/
def withoutTarget (links : List Relation) (target : String) : List Relation :=
  links.filter (·.uri ≠ target)

/-- If a link is there, it goes. -/
theorem unlink_of_present {source target sourceUri targetUri : String} {links : List Relation}
    (sourceNormal : normalize source = .ok sourceUri)
    (targetNormal : normalize target = .ok targetUri)
    (found : store.relations.get? sourceUri = some links)
    (present : (withoutTarget links targetUri).length ≠ links.length) :
    store.unlink source target = (.ok (),
      { store with
        relations :=
          if (withoutTarget links targetUri).isEmpty then store.relations.erase sourceUri
          else store.relations.insert sourceUri (withoutTarget links targetUri) }) := by
  rw [unlink, withUri_of_ok sourceNormal, withUri_of_ok targetNormal, found]
  refine (if_neg present).trans ?_
  by_cases nothingLeft : (withoutTarget links targetUri).isEmpty = true
  · rw [if_pos nothingLeft]
    exact if_pos nothingLeft
  · rw [if_neg nothingLeft]
    exact if_neg nothingLeft

/-- Removing a link is refused, or the link is there and goes. -/
theorem unlink_cases (store : Store) (source target : String) :
    Refused store (store.unlink source target) ∨
      ∃ sourceUri targetUri links, normalize source = .ok sourceUri ∧
        normalize target = .ok targetUri ∧ store.relations.get? sourceUri = some links ∧
        (withoutTarget links targetUri).length ≠ links.length ∧
        store.unlink source target = (.ok (),
          { store with
            relations :=
              if (withoutTarget links targetUri).isEmpty then store.relations.erase sourceUri
              else store.relations.insert sourceUri (withoutTarget links targetUri) }) := by
  cases sourceNormal : normalize source with
  | error error =>
    rw [unlink, withUri_of_error sourceNormal]
    exact .inl (refused_of_normalize sourceNormal)
  | ok sourceUri =>
    cases targetNormal : normalize target with
    | error error =>
      rw [unlink, withUri_of_ok sourceNormal, withUri_of_error targetNormal]
      exact .inl (refused_of_normalize targetNormal)
    | ok targetUri =>
      cases found : store.relations.get? sourceUri with
      | none =>
        rw [unlink, withUri_of_ok sourceNormal, withUri_of_ok targetNormal, found]
        exact .inl ⟨_, by simp [Error.code], rfl⟩
      | some links =>
        by_cases absent : (withoutTarget links targetUri).length = links.length
        · left
          rw [unlink, withUri_of_ok sourceNormal, withUri_of_ok targetNormal, found]
          refine ⟨.notFound ("no relation " ++ sourceUri ++ " -> " ++ targetUri),
            by simp [Error.code], ?_⟩
          exact if_pos absent
        · exact .inr ⟨sourceUri, targetUri, links, rfl, rfl, found, absent,
            unlink_of_present sourceNormal targetNormal found absent⟩

/-- A store came from another one by changes to the links that kept them intact. -/
structure Relinked (before after : Store) : Prop where
  entries : after.entries = before.entries
  linked : Linked after.entries after.relations

theorem Refused.relinked {α : Type} {outcome : Outcome α} (refused : Refused store outcome)
    (linked : Linked store.entries store.relations) : Relinked store outcome.2 := by
  obtain ⟨_, _, rfl⟩ := refused
  exact ⟨rfl, linked⟩

/-- Linking only changes links, and keeps them intact. -/
theorem relinked_link (linked : Linked store.entries store.relations) (source : String)
    (targets : List String) (reason : String) :
    Relinked store (store.link source targets reason).2 := by
  rcases link_cases store source targets reason with
    refused | ⟨sourceUri, targetUris, _, _, _, found, done⟩
  · exact refused.relinked linked
  · rw [done]
    refine ⟨rfl, ?_⟩
    have before : ∀ uri ∈ ((store.relations.get? sourceUri).getD []).map (·.uri),
        ∃ entry, store.entries.get? uri = some entry := by
      intro uri member
      obtain ⟨link, inLinks, rfl⟩ := List.mem_map.1 member
      cases old : store.relations.get? sourceUri with
      | none => simp [old] at inLinks
      | some links => exact linked.targets sourceUri links old link (by simpa [old] using inLinks)
    refine linked.insert (found _ List.mem_cons_self) ?_ ?_
    · intro link member
      rcases mem_foldl_setLink (List.mem_map_of_mem member) with new | old
      · exact found _ (List.mem_cons_of_mem _ new)
      · exact before _ old
    · refine nodup_foldl_setLink reason targetUris ?_
      cases old : store.relations.get? sourceUri with
      | none => simp
      | some links => exact linked.distinct sourceUri links old

/-- Removing a link only changes links, and keeps the others intact. -/
theorem relinked_unlink (linked : Linked store.entries store.relations) (source target : String) :
    Relinked store (store.unlink source target).2 := by
  rcases unlink_cases store source target with
    refused | ⟨sourceUri, targetUri, links, _, _, found, _, done⟩
  · exact refused.relinked linked
  · rw [done]
    refine ⟨rfl, ?_⟩
    simp only
    split
    · exact linked.erase sourceUri
    · refine linked.insert (linked.sources sourceUri links found) ?_ ?_
      · exact fun link member =>
          linked.targets sourceUri links found link (List.mem_filter.1 member).1
      · exact (linked.distinct sourceUri links found).sublist (List.filter_sublist.map _)

/-! ## Removing and moving entries -/

theorem get?_relationsWithout (relations : SortedMap (List Relation)) (gone : List String)
    (source : String) :
    (relationsWithout relations gone).get? source =
      if source ∈ gone then none
      else (relations.get? source).map fun links =>
        links.filter fun link => !gone.contains link.uri := by
  rw [relationsWithout, SortedMap.get?_mapValues, SortedMap.get?_filter]
  cases relations.get? source with
  | none => simp
  | some links => by_cases member : source ∈ gone <;> simp [member, Option.filter_some]

/-- Removing a subtree leaves no link dangling. -/
theorem linked_of_removed (linked : Linked entries relations) (target : String)
    {after : SortedMap Entry}
    (kept : ∀ key, after.get? key = if isWithin key target then none else entries.get? key) :
    Linked after (relationsWithout relations (removed entries target)) := by
  have stays : ∀ {key}, key ∉ removed entries target →
      (∃ entry, entries.get? key = some entry) → ∃ entry, after.get? key = some entry := by
    rintro key notRemoved ⟨entry, found⟩
    have outside : isWithin key target = false := by
      rw [← Bool.not_eq_true, isWithin_eq_true_iff]
      rintro (same | below)
      · exact notRemoved (mem_removed_iff.2 (.inl same))
      · exact notRemoved (mem_removed_iff.2 (.inr ⟨below, entry, found⟩))
    exact ⟨entry, by simp [kept, outside, found]⟩
  have origin : ∀ {source links},
      (relationsWithout relations (removed entries target)).get? source = some links →
      source ∉ removed entries target ∧ ∃ old, relations.get? source = some old ∧
        links = old.filter fun link => !(removed entries target).contains link.uri := by
    intro source links found
    rw [get?_relationsWithout] at found
    split at found
    · cases found
    · rename_i notRemoved
      obtain ⟨old, foundOld, same⟩ := Option.map_eq_some_iff.1 found
      exact ⟨notRemoved, old, foundOld, same.symm⟩
  refine ⟨?_, ?_, ?_⟩
  · intro source links found
    obtain ⟨notRemoved, old, foundOld, _⟩ := origin found
    exact stays notRemoved (linked.sources source old foundOld)
  · intro source links found link member
    obtain ⟨_, old, foundOld, rfl⟩ := origin found
    obtain ⟨inOld, notRemoved⟩ := List.mem_filter.1 member
    exact stays (by simpa using notRemoved) (linked.targets source old foundOld link inOld)
  · intro source links found
    obtain ⟨_, old, foundOld, rfl⟩ := origin found
    exact (linked.distinct source old foundOld).sublist (List.filter_sublist.map _)

variable {source destination : Trail} {now : Tick}

/-- A link to where its target is after a move. -/
def graftLink (source destination : Trail) (link : Relation) : Relation :=
  { link with uri := grafted source.uri destination.uri link.uri }

namespace Movable

/-- What is there before a move is there once its directories are created. -/
theorem covered_prepared (movable : Movable entries source destination) (now : Tick) :
    Covered entries (prepared entries destination now) :=
  covered_withDirs movable.clear

/-- Redirecting links to existing entries is grafting them. -/
theorem redirect_eq_map_graftLink (movable : Movable entries source destination)
    (tree : Tree entries) (now : Tick) {links : List Relation}
    (found : ∀ link ∈ links, ∃ entry, entries.get? link.uri = some entry) :
    redirect source.uri destination.uri (moved (prepared entries destination now) source.uri)
        links = links.map (graftLink source destination) := by
  refine List.map_congr_left fun link member => ?_
  obtain ⟨uri, reason⟩ := link
  obtain ⟨entry, foundEntry⟩ := found ⟨uri, reason⟩ member
  obtain ⟨trail, rfl⟩ := tree.exists_trail foundEntry
  have inPrepared := movable.covered_prepared now trail.uri entry foundEntry
  simp only [graftLink, movable.grafted_eq,
    List.contains_iff_mem]
  by_cases within : trail.Within source
  · rw [if_pos (mem_moved_iff.2 ⟨within, inPrepared⟩),
      movable.renamed_eq within]
  · have notMoved : trail.uri ∉ moved (prepared entries destination now) source.uri :=
      fun inMoved => within (mem_moved_iff.1 inMoved).1
    rw [if_neg notMoved, Trail.rebase_of_not_within within]

/-- The links of an entry move with it, and lead where their targets have moved. -/
theorem get?_linksAfterMove (movable : Movable store.entries source destination)
    (tree : Tree store.entries) (linked : Linked store.entries store.relations) {entry : Entry}
    (found : (prepared store.entries destination now).get? trail.uri = some entry) :
    (linksAfterMove store source destination now).get?
        (Trail.rebase source destination trail).uri =
      (store.relations.get? trail.uri).map (List.map (graftLink source destination)) := by
  have covered := linked.sources.trans (movable.covered_prepared now)
  rw [linksAfterMove, SortedMap.get?_mapValues, movable.get?_renameAll tree covered found]
  cases old : store.relations.get? trail.uri with
  | none => simp
  | some links =>
    have redirected := movable.redirect_eq_map_graftLink tree now (linked.targets _ links old)
    simp [redirected]

/-- After a move, only what had links before has links. -/
theorem exists_of_get?_linksAfterMove (movable : Movable store.entries source destination)
    (tree : Tree store.entries) (linked : Linked store.entries store.relations)
    {key : String} {links : List Relation}
    (found : (linksAfterMove store source destination now).get? key = some links) :
    ∃ trail : Trail, key = (Trail.rebase source destination trail).uri ∧
      (∃ entry, store.entries.get? trail.uri = some entry) ∧
      ∃ old, store.relations.get? trail.uri = some old ∧
        links = old.map (graftLink source destination) := by
  have covered := linked.sources.trans (movable.covered_prepared now)
  have named := found
  rw [linksAfterMove, SortedMap.get?_mapValues] at named
  obtain ⟨_, renamedLinks, _⟩ := Option.map_eq_some_iff.1 named
  obtain ⟨trail, rfl, entry, foundEntry⟩ :=
    movable.exists_of_get?_renameAll tree covered renamedLinks
  rw [movable.get?_linksAfterMove tree linked foundEntry] at found
  obtain ⟨old, foundOld, rfl⟩ := Option.map_eq_some_iff.1 found
  exact ⟨trail, rfl, linked.sources _ old foundOld, old, foundOld, rfl⟩

/-- A move brings no two entries to one address. -/
theorem grafted_injective (movable : Movable entries source destination) (tree : Tree entries)
    {first second : String} (firstFound : ∃ entry, entries.get? first = some entry)
    (secondFound : ∃ entry, entries.get? second = some entry)
    (same : grafted source.uri destination.uri first = grafted source.uri destination.uri second) :
    first = second := by
  obtain ⟨one, foundOne⟩ := firstFound
  obtain ⟨two, foundTwo⟩ := secondFound
  obtain ⟨oneTrail, rfl⟩ := tree.exists_trail foundOne
  obtain ⟨twoTrail, rfl⟩ := tree.exists_trail foundTwo
  have onePrepared := movable.get?_prepared_of_found 0 foundOne
  have twoPrepared := movable.get?_prepared_of_found 0 foundTwo
  rw [movable.grafted_eq,
    movable.grafted_eq, Trail.uri_inj] at same
  rw [Trail.rebase_injective (movable.not_within_destination tree onePrepared)
    (movable.not_within_destination tree twoPrepared) same]

/-- Moving a subtree keeps the links intact. -/
theorem linked_afterMove (movable : Movable store.entries source destination)
    (tree : Tree store.entries) (linked : Linked store.entries store.relations) (now : Tick) :
    Linked (afterMove store.entries source destination now)
      (linksAfterMove store source destination now) where
  sources := by
    intro key links found
    obtain ⟨trail, rfl, ⟨entry, known⟩, _⟩ :=
      movable.exists_of_get?_linksAfterMove tree linked found
    rw [← movable.grafted_eq]
    exact ⟨_, movable.get?_afterMove_grafted tree now known⟩
  targets := by
    intro key links found link member
    obtain ⟨trail, rfl, _, old, foundOld, rfl⟩ :=
      movable.exists_of_get?_linksAfterMove tree linked found
    obtain ⟨oldLink, inOld, rfl⟩ := List.mem_map.1 member
    obtain ⟨entry, foundEntry⟩ := linked.targets _ old foundOld oldLink inOld
    exact ⟨_, movable.get?_afterMove_grafted tree now foundEntry⟩
  distinct := by
    intro key links found
    obtain ⟨trail, rfl, _, old, foundOld, rfl⟩ :=
      movable.exists_of_get?_linksAfterMove tree linked found
    have targets := linked.targets _ old foundOld
    have distinct := List.pairwise_map.1 (linked.distinct _ old foundOld)
    rw [List.map_map]
    refine List.pairwise_map.2 (distinct.imp_of_mem ?_)
    intro first second firstMember secondMember different same
    exact different (movable.grafted_injective tree (targets first firstMember)
      (targets second secondMember) same)

end Movable

end Store

end ContextDb
