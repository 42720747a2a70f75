import ContextDb.Proofs.Reachable

/-!
# Edits of links

Linking replaces the reasons of links that are there and puts new ones behind them, in order
and each once. Removing a link removes this one only, since no other leads to the same
entry. Either changes the links of one entry, and a new link that is removed again leaves
no trace.
-/

namespace ContextDb.Store

open Uri

/-- There is an entry at an address. -/
def IsThere (store : Store) (uri : String) : Prop :=
  ∃ key entry, normalize uri = .ok key ∧ store.entries.get? key = some entry

/-- An entry has a link to another one. -/
def LinksTo (store : Store) (source target : String) : Prop :=
  ∃ links, store.relationsOf source = .ok links ∧
    ∃ link ∈ links, normalize target = .ok link.uri

/-- A list of links after links to targets have been set: those that are there keep their
order and get the reason if they lead to a target, and the targets that are missing follow in
the order in which they occur first. -/
def withLinks (reason : String) (targets : List String) (links : List Relation) :
    List Relation :=
  (links.map fun link => if link.uri ∈ targets then { link with reason } else link) ++
    (targets.filter (· ∉ links.map (·.uri))).eraseDups.map fun target => ⟨target, reason⟩

/-- One entry has other links than before, and all else is the same. -/
structure HasNewLinks (before after : Store) (source : String) (links : List Relation) : Prop where
  here : ∀ uri, normalize uri = normalize source → after.relationsOf uri = .ok links
  elsewhere : ∀ uri, normalize uri ≠ normalize source →
    after.relationsOf uri = before.relationsOf uri
  entries : after.entries = before.entries
  sessions : after.sessions = before.sessions

variable {store after : Store} {source target sourceUri targetUri uri : String}
  {targets targetUris : List String} {links old : List Relation} {reason : String}

/-! ## Lists of links -/

/-- A target that is linked already only passes on its reason. -/
theorem withLinks_cons_of_linked (linked : target ∈ links.map (·.uri)) (reason : String)
    (others : List String) :
    withLinks reason others (setLink reason links target) =
      withLinks reason (target :: others) links := by
  have uris : (setLink reason links target).map (·.uri) = links.map (·.uri) := by
    rw [map_uri_setLink, if_pos linked]
  have replaced : setLink reason links target =
      links.map fun link => if link.uri = target then { link with reason } else link :=
    if_pos (by simpa using linked)
  unfold withLinks
  rw [uris, replaced, List.map_map, List.filter_cons_of_neg (by simpa using linked)]
  congr 1
  refine List.map_congr_left fun link _ => ?_
  by_cases same : link.uri = target <;> simp [same]

/-- A target that is missing comes before those that are named after it. -/
theorem withLinks_cons_of_missing (missing : target ∉ links.map (·.uri)) (reason : String)
    (others : List String) :
    withLinks reason others (setLink reason links target) =
      withLinks reason (target :: others) links := by
  have uris : (setLink reason links target).map (·.uri) = links.map (·.uri) ++ [target] := by
    rw [map_uri_setLink, if_neg missing]
  have appended : setLink reason links target = links ++ [⟨target, reason⟩] :=
    if_neg (by simpa using missing)
  have stillMissing : others.filter (· ∉ links.map (·.uri) ++ [target]) =
      (others.filter (· ∉ links.map (·.uri))).filter fun other => !other == target := by
    rw [List.filter_filter]
    refine List.filter_congr fun other _ => ?_
    by_cases same : other = target <;> simp [same]
  have unchanged : ∀ link ∈ links,
      (if link.uri ∈ others then { link with reason } else link) =
        if link.uri ∈ target :: others then { link with reason } else link := by
    intro link member
    have different : link.uri ≠ target := fun same => missing (same ▸ List.mem_map_of_mem member)
    simp [different]
  unfold withLinks
  rw [uris, stillMissing, appended, List.filter_cons_of_pos (by simpa using missing),
    List.eraseDups_cons, List.map_append, List.map_congr_left unchanged, List.append_assoc]
  simp

/-- Setting links one after another is setting them at once. -/
theorem foldl_setLink (reason : String) (targets : List String) (links : List Relation) :
    targets.foldl (setLink reason) links = withLinks reason targets links := by
  induction targets generalizing links with
  | nil => simp [withLinks]
  | cons target others inductionHypothesis =>
    rw [List.foldl_cons, inductionHypothesis]
    by_cases linked : target ∈ links.map (·.uri)
    · exact withLinks_cons_of_linked linked reason others
    · exact withLinks_cons_of_missing linked reason others

/-- A single new link comes last. -/
theorem withLinks_singleton (missing : target ∉ links.map (·.uri)) (reason : String) :
    withLinks reason [target] links = links ++ [⟨target, reason⟩] := by
  rw [← foldl_setLink]
  exact if_neg (by simpa using missing)

/-- Without any link to a target, removing those to it changes nothing. -/
theorem withoutTarget_of_missing (missing : target ∉ links.map (·.uri)) :
    withoutTarget links target = links := by
  refine List.filter_eq_self.2 fun link member => ?_
  have different : link.uri ≠ target := fun same => missing (same ▸ List.mem_map_of_mem member)
  simpa using different

/-- Removing a link to a target leaves the others if none of them leads there. -/
theorem withoutTarget_append_cons {earlier later : List Relation} {link : Relation}
    (missing : link.uri ∉ (earlier ++ later).map (·.uri)) :
    withoutTarget (earlier ++ link :: later) link.uri = earlier ++ later := by
  rw [← withoutTarget_of_missing missing]
  simp [withoutTarget]

/-- There is a link to a target exactly if removing those to it changes the number of links. -/
theorem length_withoutTarget_ne_iff :
    (withoutTarget links target).length ≠ links.length ↔ ∃ link ∈ links, link.uri = target := by
  simp [withoutTarget, List.length_filter_eq_length_iff]

/-! ## Links by address -/

/-- The links of an entry are the same under any spelling of its address. -/
theorem relationsOf_of_normalize (normalized : normalize uri = .ok sourceUri) (store : Store) :
    store.relationsOf uri = .ok ((store.relations.get? sourceUri).getD []) := by
  rw [relationsOf, normalized]
  rfl

namespace HasNewLinks

variable {middle : Store} {others : List Relation}

/-- One entry has other links if the map of links has changed for it. -/
theorem of_get? (sourceNormal : normalize source = .ok sourceUri)
    {relations : SortedMap (List Relation)}
    (here : (relations.get? sourceUri).getD [] = links)
    (elsewhere : ∀ key, key ≠ sourceUri → relations.get? key = store.relations.get? key) :
    HasNewLinks store { store with relations } source links where
  here := by
    intro uri same
    rw [relationsOf_of_normalize (same.trans sourceNormal), here]
  elsewhere := by
    intro uri different
    rw [sourceNormal] at different
    cases normalized : normalize uri with
    | error error =>
      rw [relationsOf, relationsOf, normalized]
      rfl
    | ok key =>
      have other : key ≠ sourceUri := fun same => different (same ▸ normalized)
      rw [relationsOf_of_normalize normalized, relationsOf_of_normalize normalized]
      exact congrArg (fun held => Except.ok (held.getD [])) (elsewhere key other)
  entries := rfl
  sessions := rfl

/-- Of two changes to the links of one entry only the second shows. -/
theorem trans (first : HasNewLinks store middle source others)
    (second : HasNewLinks middle after source links) : HasNewLinks store after source links where
  here := second.here
  elsewhere := fun uri different =>
    (second.elsewhere uri different).trans (first.elsewhere uri different)
  entries := second.entries.trans first.entries
  sessions := second.sessions.trans first.sessions

/-- If the new links are the old ones, all links are the old ones. -/
theorem relationsOf_eq (changed : HasNewLinks store after source old)
    (isOld : store.relationsOf source = .ok old) (uri : String) :
    after.relationsOf uri = store.relationsOf uri := by
  by_cases same : normalize uri = normalize source
  · have sameLinks : store.relationsOf uri = store.relationsOf source := by
      rw [relationsOf, relationsOf, same]
    rw [changed.here uri same, sameLinks, isOld]
  · exact changed.elsewhere uri same

end HasNewLinks

/-! ## Linking -/

/-- Entries are there if their addresses have normal forms at which there are entries. -/
theorem forall_isThere_iff {uris : List String} :
    (∀ uri ∈ uris, IsThere store uri) ↔
      ∃ keys, List.Forall₂ (fun uri key => normalize uri = .ok key) uris keys ∧
        ∀ key ∈ keys, ∃ entry, store.entries.get? key = some entry := by
  induction uris with
  | nil => simp
  | cons uri others inductionHypothesis =>
    rw [List.forall_mem_cons, inductionHypothesis]
    constructor
    · rintro ⟨⟨key, entry, normalized, found⟩, keys, pairs, known⟩
      exact ⟨key :: keys, .cons normalized pairs,
        List.forall_mem_cons.2 ⟨⟨entry, found⟩, known⟩⟩
    · rintro ⟨_, pairs, known⟩
      cases pairs with
      | cons normalized rest =>
        obtain ⟨⟨entry, found⟩, knownRest⟩ := List.forall_mem_cons.1 known
        exact ⟨⟨_, entry, normalized, found⟩, _, rest, knownRest⟩

/-- Linking succeeds exactly if targets are named and all entries are there. -/
theorem link_eq_ok_iff (store : Store) (source : String) (targets : List String)
    (reason : String) :
    (∃ links, (store.link source targets reason).1 = .ok links) ↔
      targets ≠ [] ∧ ∀ uri ∈ source :: targets, IsThere store uri := by
  rw [forall_isThere_iff]
  constructor
  · rintro ⟨links, gave⟩
    rcases link_cases store source targets reason with
      ⟨_, _, refused⟩ | ⟨sourceUri, targetUris, isSource, areTargets, nonempty, found, _⟩
    · rw [refused] at gave
      cases gave
    · refine ⟨?_, sourceUri :: targetUris, .cons isSource (mapM_eq_ok_iff.1 areTargets), found⟩
      rintro rfl
      exact nonempty (Except.ok.inj areTargets).symm
  · rintro ⟨nonempty, _, pairs, found⟩
    cases pairs with
    | @cons _ sourceUri _ targetUris isSource areTargets =>
      have targetsNonempty : targetUris ≠ [] := by
        rintro rfl
        exact nonempty (List.forall₂_nil_right_iff.1 areTargets)
      rw [link_of_found isSource (mapM_eq_ok_iff.2 areTargets) targetsNonempty found]
      exact ⟨_, rfl⟩

/-- Linking sets the links at once, gives them all and changes no others. -/
theorem hasNewLinks_link (gave : (store.link source targets reason).1 = .ok links) :
    ∃ old targetUris, store.relationsOf source = .ok old ∧
      List.Forall₂ (fun target uri => normalize target = .ok uri) targets targetUris ∧
      links = withLinks reason targetUris old ∧
      HasNewLinks store (store.link source targets reason).2 source links := by
  rcases link_cases store source targets reason with
    ⟨_, _, refused⟩ | ⟨sourceUri, targetUris, isSource, areTargets, _, _, done⟩
  · rw [refused] at gave
    cases gave
  · rw [done] at gave ⊢
    obtain rfl := Except.ok.inj gave
    refine ⟨_, targetUris, relationsOf_of_normalize isSource store, mapM_eq_ok_iff.1 areTargets,
      foldl_setLink _ _ _, .of_get? isSource (by simp) fun key different => ?_⟩
    rw [SortedMap.get?_insert, if_neg different.symm]

/-! ## Removing links -/

/-- A link that is there is removed. -/
theorem hasNewLinks_unlink (linksTo : LinksTo store source target) :
    (store.unlink source target).1 = .ok () ∧ ∃ old targetUri,
      store.relationsOf source = .ok old ∧ normalize target = .ok targetUri ∧
      HasNewLinks store (store.unlink source target).2 source (withoutTarget old targetUri) := by
  obtain ⟨old, isOld, link, member, isTarget⟩ := linksTo
  obtain ⟨sourceUri, isSource, isHeld⟩ := bind_eq_ok_iff.1 isOld
  cases found : store.relations.get? sourceUri with
  | none =>
    rw [found] at isHeld
    cases isHeld
    cases member
  | some links =>
    rw [found] at isHeld
    cases isHeld
    have present := length_withoutTarget_ne_iff.2 ⟨link, member, rfl⟩
    rw [unlink_of_present isSource isTarget found present]
    refine ⟨rfl, _, link.uri, isOld, isTarget, .of_get? isSource ?_ fun key different => ?_⟩
    · by_cases nothingLeft : withoutTarget links link.uri = []
      · simp [nothingLeft]
      · simp [nothingLeft]
    · by_cases nothingLeft : withoutTarget links link.uri = []
      · simp [nothingLeft, SortedMap.get?_erase, different.symm]
      · simp [nothingLeft, SortedMap.get?_insert, different.symm]

/-- Removing a link succeeds exactly if it is there. -/
theorem unlink_eq_ok_iff :
    (store.unlink source target).1 = .ok () ↔ LinksTo store source target := by
  refine ⟨fun gave => ?_, fun linksTo => (hasNewLinks_unlink linksTo).1⟩
  rcases unlink_cases store source target with
    ⟨_, _, refused⟩ | ⟨sourceUri, targetUri, links, isSource, isTarget, found, present, _⟩
  · rw [refused] at gave
    cases gave
  · obtain ⟨link, member, rfl⟩ := length_withoutTarget_ne_iff.1 present
    refine ⟨links, ?_, link, member, isTarget⟩
    rw [relationsOf_of_normalize isSource, found]
    rfl

/-- In a store with intact links, the links of an entry lead to different ones. -/
theorem nodup_of_relationsOf (linked : Linked store.entries store.relations)
    (isHeld : store.relationsOf source = .ok links) : (links.map (·.uri)).Nodup := by
  obtain ⟨sourceUri, _, gives⟩ := bind_eq_ok_iff.1 isHeld
  cases found : store.relations.get? sourceUri with
  | none =>
    rw [found] at gives
    cases gives
    exact .nil
  | some held =>
    rw [found] at gives
    cases gives
    exact linked.distinct sourceUri held found

/-- In a store with intact links, removing a link removes no other. -/
theorem exists_split_of_unlink (linked : Linked store.entries store.relations)
    (gave : (store.unlink source target).1 = .ok ()) :
    ∃ earlier link later, store.relationsOf source = .ok (earlier ++ link :: later) ∧
      normalize target = .ok link.uri ∧
      HasNewLinks store (store.unlink source target).2 source (earlier ++ later) := by
  have linksTo := unlink_eq_ok_iff.1 gave
  obtain ⟨_, old, targetUri, isOld, isTargetUri, changed⟩ := hasNewLinks_unlink linksTo
  obtain ⟨links, isHeld, link, member, isTarget⟩ := linksTo
  obtain rfl := Except.ok.inj (isTarget.symm.trans isTargetUri)
  obtain rfl := Except.ok.inj (isHeld.symm.trans isOld)
  obtain ⟨earlier, later, rfl⟩ := List.append_of_mem member
  have distinct := nodup_of_relationsOf linked isHeld
  have linkFirst : (earlier ++ link :: later).Perm (link :: (earlier ++ later)) := List.perm_middle
  have missing := (List.nodup_cons.1 ((linkFirst.map (·.uri)).nodup_iff.1 distinct)).1
  rw [withoutTarget_append_cons missing] at changed
  exact ⟨earlier, link, later, isHeld, isTarget, changed⟩

/-- A new link that is removed again leaves all links as they were. -/
theorem unlink_after_link (notYet : ¬ LinksTo store source target)
    (gave : (store.link source [target] reason).1 = .ok links) :
    ((store.link source [target] reason).2.unlink source target).1 = .ok () ∧
      ∀ uri, ((store.link source [target] reason).2.unlink source target).2.relationsOf uri =
        store.relationsOf uri := by
  obtain ⟨old, _, isOld, areTargets, rfl, linkedTo⟩ := hasNewLinks_link gave
  obtain ⟨targetUri, _, isTarget, none, rfl⟩ := List.forall₂_cons_left_iff.1 areTargets
  obtain rfl := List.forall₂_nil_left_iff.1 none
  have missing : targetUri ∉ old.map (·.uri) := by
    intro member
    obtain ⟨link, isThere, rfl⟩ := List.mem_map.1 member
    exact notYet ⟨old, isOld, link, isThere, isTarget⟩
  rw [withLinks_singleton missing] at linkedTo
  have isNow := linkedTo.here source rfl
  obtain ⟨done, held, _, isHeld, isTargetUri, removed⟩ := hasNewLinks_unlink
    ⟨_, isNow, ⟨targetUri, reason⟩, List.mem_append_right _ List.mem_cons_self, isTarget⟩
  obtain rfl := Except.ok.inj (isTarget.symm.trans isTargetUri)
  obtain rfl := Except.ok.inj (isNow.symm.trans isHeld)
  rw [← old.append_nil] at missing
  rw [withoutTarget_append_cons missing, List.append_nil] at removed
  exact ⟨done, (linkedTo.trans removed).relationsOf_eq isOld⟩

/-! ## Edits -/

/-- In a reachable store, an entry can be linked to others exactly if there are some and all
are there, and this sets its links to them and changes no others. A link can be removed exactly
if it is there, and this removes it and no other. A single new link that is removed again leaves
all links as they were. -/
theorem links_are_edited_in_place (reachable : Reachable store) :
    (∀ source targets reason,
      ((∃ links, (store.link source targets reason).1 = .ok links) ↔
        targets ≠ [] ∧ ∀ uri ∈ source :: targets, IsThere store uri) ∧
      ∀ links, (store.link source targets reason).1 = .ok links →
        ∃ old targetUris, store.relationsOf source = .ok old ∧
          List.Forall₂ (fun target uri => normalize target = .ok uri) targets targetUris ∧
          links = withLinks reason targetUris old ∧
          HasNewLinks store (store.link source targets reason).2 source links) ∧
    (∀ source target,
      ((store.unlink source target).1 = .ok () ↔ LinksTo store source target) ∧
      ((store.unlink source target).1 = .ok () →
        ∃ earlier link later, store.relationsOf source = .ok (earlier ++ link :: later) ∧
          normalize target = .ok link.uri ∧
          HasNewLinks store (store.unlink source target).2 source (earlier ++ later))) ∧
    ∀ source target reason links, ¬ LinksTo store source target →
      (store.link source [target] reason).1 = .ok links →
        ((store.link source [target] reason).2.unlink source target).1 = .ok () ∧
        ∀ uri, ((store.link source [target] reason).2.unlink source target).2.relationsOf uri =
          store.relationsOf uri := by
  refine ⟨fun source targets reason => ?_, fun source target => ?_, ?_⟩
  · exact ⟨link_eq_ok_iff store source targets reason, fun links gave => hasNewLinks_link gave⟩
  · exact ⟨unlink_eq_ok_iff, fun gave => exists_split_of_unlink reachable.sound.linked gave⟩
  · intro source target reason links notYet gave
    exact unlink_after_link notYet gave

/-- A store with a link between two of its files. -/
def web : Store :=
  (empty 0).run [
    (⟨1, ⟨0⟩⟩, .addResource "viking://a" "1"),
    (⟨2, ⟨0⟩⟩, .addResource "viking://b" "2"),
    (⟨3, ⟨0⟩⟩, .addResource "viking://c" "3"),
    (⟨4, ⟨0⟩⟩, .link "viking://a" ["viking://b"] "old")]

/-- A target that is named twice is linked once, behind the link that was there, and either
link can go. -/
theorem web_is_edited :
    (web.link "viking://a" ["viking://c/", "viking://b", "viking://c"] "new").1 =
        .ok (withLinks "new" ["viking://c", "viking://b", "viking://c"] [⟨"viking://b", "old"⟩]) ∧
      HasNewLinks web
        (web.link "viking://a" ["viking://c/", "viking://b", "viking://c"] "new").2 "viking://a"
        [⟨"viking://b", "new"⟩, ⟨"viking://c", "new"⟩] ∧
      LinksTo web "viking://a/" "viking://b" ∧
      ((web.link "viking://a" ["viking://c"] "new").2.unlink "viking://a" "viking://c").1 = .ok () ∧
      ∀ uri, ((web.link "viking://a" ["viking://c"] "new").2.unlink "viking://a"
        "viking://c").2.relationsOf uri = web.relationsOf uri := by
  have reachable : Reachable web := (Reachable.empty 0).run _
  obtain ⟨linking, unlinking, back⟩ := links_are_edited_in_place reachable
  have gave : (web.link "viking://a" ["viking://c/", "viking://b", "viking://c"] "new").1 =
      .ok [⟨"viking://b", "new"⟩, ⟨"viking://c", "new"⟩] := by decide +kernel
  obtain ⟨_, _, _, _, _, changed⟩ := (linking _ _ _).2 _ gave
  have linked : LinksTo web "viking://a/" "viking://b" :=
    (unlinking _ _).1.1 (by decide +kernel)
  have notYet : ¬ LinksTo web "viking://a" "viking://c" := fun linksTo =>
    absurd ((unlinking _ _).1.2 linksTo) (by decide +kernel)
  have single : (web.link "viking://a" ["viking://c"] "new").1 =
      .ok [⟨"viking://b", "old"⟩, ⟨"viking://c", "new"⟩] := by decide +kernel
  exact ⟨by decide +kernel, changed, linked, back _ _ _ _ notYet single⟩

end ContextDb.Store
