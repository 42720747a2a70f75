import ContextDb.Proofs.Grafting

/-!
# Moving there and back

Whatever has been moved can be moved back: its old place is free, it does not lie inside the
new one, and what was above it is still there. Both moves together take every address to
itself, so entries and links are what they were, except that the directories made on the
way to the destination stay.
-/

namespace ContextDb.Store

open Uri

/-- What becomes of an entry when a subtree is moved away and back: if it is within the
subtree, it is dated anew. -/
def redated (source key : String) (later : Tick) (entry : Entry) : Entry :=
  if isWithin key source then { entry with updatedAt := later } else entry

/-- One store is another one after a subtree was moved away and back. -/
structure IsRestored (before after : Store) (source destination : String) (now later : Tick) :
    Prop where
  /-- Every entry is where it was. -/
  entries : ∀ key entry, before.entries.get? key = some entry →
    after.entries.get? key = some (redated source key later entry)
  /-- Nothing else is there but the directories that were missing above the destination. -/
  others : ∀ key entry, before.entries.get? key = none → (after.entries.get? key = some entry ↔
    key ∈ ancestors destination ∧ entry = .newDir key now)
  relations : ∀ uri, after.relationsOf uri = before.relationsOf uri
  sessions : after.sessions = before.sessions

variable {store : Store} {entries : SortedMap Entry} {source destination trail : Trail}
  {entry : Entry} {key : String} {now later : Tick}

namespace Movable

/-- What is there before a move was not within the destination. -/
theorem outside_destination (movable : Movable entries source destination) (tree : Tree entries)
    (found : entries.get? trail.uri = some entry) : ¬ trail.Within destination :=
  movable.not_within_destination tree (movable.get?_prepared_of_found 0 found)

/-- The source is free after a move. -/
theorem get?_afterMove_source (movable : Movable entries source destination) (tree : Tree entries)
    (now : Tick) : (afterMove entries source destination now).get? source.uri = none := by
  obtain ⟨top, present⟩ := movable.present
  refine Option.eq_none_iff_forall_ne_some.2 fun entry found => ?_
  obtain ⟨trail, same, _⟩ := movable.exists_of_get?_afterMove tree found
  rw [Trail.uri_inj] at same
  by_cases within : trail.Within source
  · exact movable.outside_destination tree present (same ▸ Trail.rebase_within within)
  · rw [Trail.rebase_of_not_within within] at same
    exact within (same ▸ Trail.within_self)

/-- What is above the source stays there during a move. -/
theorem exists_dir_above_source (movable : Movable entries source destination)
    (tree : Tree entries) (now : Tick) (above : source.Below trail) :
    ∃ dir, (afterMove entries source destination now).get? trail.uri = some dir ∧
      dir.isDir = true := by
  obtain ⟨top, present⟩ := movable.present
  obtain ⟨dir, found, isDir⟩ := tree.above present above
  have outside : ¬ trail.Within source := by
    intro within
    rcases Trail.within_iff.1 within with rfl | below
    · exact Trail.not_below_self above
    · exact Trail.not_below_self (above.trans below)
  have moves := movable.get?_afterMove tree (movable.get?_prepared_of_found now found)
  rw [Trail.rebase_of_not_within outside] at moves
  exact ⟨_, moves, by simpa using isDir⟩

/-- What has been moved can be moved back. -/
theorem back (movable : Movable entries source destination) (tree : Tree entries) (now : Tick) :
    Movable (afterMove entries source destination now) destination source where
  sourceNonempty := movable.destinationNonempty
  destinationNonempty := movable.sourceNonempty
  notBelow := by
    obtain ⟨top, present⟩ := movable.present
    exact fun below => movable.outside_destination tree present below.within
  present := by
    obtain ⟨top, present⟩ := movable.present
    exact ⟨_, movable.get?_afterMove_destination tree now present⟩
  free := movable.get?_afterMove_source tree now
  clear := by
    intro dir member existing found
    obtain ⟨upper, above, rfl⟩ := Trail.mem_ancestors_iff.1 member
    obtain ⟨_, there, isDir⟩ := movable.exists_dir_above_source tree now above
    cases found.symm.trans there
    exact isDir

/-- Moving back creates no directories. -/
theorem get?_prepared_back (movable : Movable entries source destination) (tree : Tree entries)
    (key : String) :
    (prepared (afterMove entries source destination now) source later).get? key =
      (afterMove entries source destination now).get? key := by
  rw [(movable.back tree now).get?_prepared]
  split
  · rename_i member
    obtain ⟨upper, above, rfl⟩ := Trail.mem_ancestors_iff.1 member
    obtain ⟨dir, there, _⟩ := movable.exists_dir_above_source tree now above
    rw [there, Option.some_or]
  · rw [Option.or_none]

/-- Nothing is there after both moves but what was there before them or was made on the way
to the destination. -/
theorem exists_of_get?_afterBack (movable : Movable entries source destination)
    (tree : Tree entries)
    (found : (prepared (afterMove entries source destination now) source later).get? trail.uri =
      some entry) :
    ∃ old, (prepared entries destination now).get?
      (Trail.rebase destination source trail).uri = some old := by
  rw [movable.get?_prepared_back tree] at found
  obtain ⟨origin, same, held, foundOld, _⟩ := movable.exists_of_get?_afterMove tree found
  obtain rfl := Trail.uri_injective same
  rw [Trail.rebase_rebase (movable.not_within_destination tree foundOld)]
  exact ⟨held, foundOld⟩

/-- Both moves together leave every entry in its place. -/
theorem get?_afterBack (movable : Movable entries source destination) (tree : Tree entries)
    (now later : Tick) (key : String) :
    (afterMove (afterMove entries source destination now) destination source later).get? key =
      ((prepared entries destination now).get? key).map (redated source.uri key later) := by
  have back := movable.back tree now
  have treeAfter := movable.tree_afterMove tree now
  cases found : (prepared entries destination now).get? key with
  | none =>
    refine Option.eq_none_iff_forall_ne_some.2 fun entry there => ?_
    obtain ⟨trail, rfl, held, foundHeld, _⟩ := back.exists_of_get?_afterMove treeAfter there
    obtain ⟨old, foundOld⟩ := movable.exists_of_get?_afterBack tree foundHeld
    cases found.symm.trans foundOld
  | some entry =>
    have treePrepared := movable.tree_prepared tree now
    obtain ⟨trail, rfl⟩ := treePrepared.exists_trail found
    have outside := movable.not_within_destination tree found
    have away := movable.get?_afterMove tree found
    have returned := back.get?_afterMove treeAfter (back.get?_prepared_of_found later away)
    rw [Trail.rebase_rebase outside] at returned
    rw [returned, Option.map_some, relocated, relocated, Trail.rebase_rebase outside, redated]
    by_cases within : trail.Within source
    · have arrived := (Trail.rebase_within_iff outside).2 within
      rw [if_pos (Trail.isWithin_uri.2 arrived), if_pos (Trail.isWithin_uri.2 within),
        if_pos (Trail.isWithin_uri.2 within)]
      simp [Entry.moveTo, ← treePrepared.keyed found]
    · have stays := mt (Trail.rebase_within_iff outside).1 within
      rw [Trail.isWithin_uri_eq_false.2 within, Trail.isWithin_uri_eq_false.2 stays]
      rfl

/-- Both moves together leave every link of an entry as it is. -/
theorem graftLink_graftLink (movable : Movable entries source destination) (tree : Tree entries)
    {link : Relation} (known : ∃ entry, entries.get? link.uri = some entry) :
    graftLink destination source (graftLink source destination link) = link := by
  obtain ⟨uri, reason⟩ := link
  obtain ⟨entry, found⟩ := known
  obtain ⟨trail, rfl⟩ := tree.exists_trail found
  have outside := movable.outside_destination tree found
  simp only [graftLink, movable.grafted_eq, (movable.back tree 0).grafted_eq,
    Trail.rebase_rebase outside]

end Movable

/-- The store after a move. -/
def withMoved (store : Store) (source destination : Trail) (now : Tick) : Store :=
  { store with
    entries := afterMove store.entries source destination now
    relations := linksAfterMove store source destination now }

@[simp]
theorem withMoved_entries (store : Store) (source destination : Trail) (now : Tick) :
    (store.withMoved source destination now).entries =
      afterMove store.entries source destination now :=
  rfl

@[simp]
theorem withMoved_relations (store : Store) (source destination : Trail) (now : Tick) :
    (store.withMoved source destination now).relations =
      linksAfterMove store source destination now :=
  rfl

namespace Movable

theorem sound_withMoved (movable : Movable store.entries source destination) (sound : Sound store)
    (now : Tick) : Sound (store.withMoved source destination now) :=
  ⟨movable.tree_afterMove sound.tree now, movable.linked_afterMove sound.tree sound.linked now⟩

/-- Both moves together leave the links of every entry as they are. -/
theorem get?_linksAfterBack (movable : Movable store.entries source destination)
    (sound : Sound store) (now later : Tick) (key : String) :
    (linksAfterMove (store.withMoved source destination now) destination source later).get? key =
      store.relations.get? key := by
  have back : Movable (store.withMoved source destination now).entries destination source := by
    rw [withMoved_entries]
    exact movable.back sound.tree now
  have soundAfter := movable.sound_withMoved sound now
  cases found : (prepared store.entries destination now).get? key with
  | none =>
    have noLinks : store.relations.get? key = none := by
      refine Option.eq_none_iff_forall_ne_some.2 fun links there => ?_
      obtain ⟨entry, known⟩ := sound.linked.sources key links there
      cases found.symm.trans (movable.get?_prepared_of_found now known)
    rw [noLinks]
    refine Option.eq_none_iff_forall_ne_some.2 fun links there => ?_
    obtain ⟨trail, rfl, ⟨entry, known⟩, _⟩ :=
      back.exists_of_get?_linksAfterMove soundAfter.tree soundAfter.linked there
    have knownThen := back.get?_prepared_of_found later known
    rw [withMoved_entries] at knownThen
    obtain ⟨old, foundOld⟩ := movable.exists_of_get?_afterBack sound.tree knownThen
    cases found.symm.trans foundOld
  | some entry =>
    obtain ⟨trail, rfl⟩ := (movable.tree_prepared sound.tree now).exists_trail found
    have outside := movable.not_within_destination sound.tree found
    have away := movable.get?_linksAfterMove sound.tree sound.linked found
    have moves := movable.get?_afterMove sound.tree found
    rw [← withMoved_entries] at moves
    have returned := back.get?_linksAfterMove soundAfter.tree soundAfter.linked
      (back.get?_prepared_of_found later moves)
    rw [Trail.rebase_rebase outside] at returned
    rw [returned, withMoved_relations, away]
    cases links : store.relations.get? trail.uri with
    | none => rfl
    | some held =>
      have unchanged : ∀ link ∈ held,
          (graftLink destination source ∘ graftLink source destination) link = id link :=
        fun link member => movable.graftLink_graftLink sound.tree
          (sound.linked.targets trail.uri held links link member)
      rw [Option.map_some, Option.map_some, List.map_map, List.map_congr_left unchanged,
        List.map_id]

/-- The store after both moves is the old one but for the new directories and the dates. -/
theorem isRestored (movable : Movable store.entries source destination) (sound : Sound store)
    (now later : Tick) :
    IsRestored store
      ((store.withMoved source destination now).withMoved destination source later)
      source.uri destination.uri now later where
  entries := by
    intro key entry found
    rw [withMoved_entries, withMoved_entries, movable.get?_afterBack sound.tree,
      movable.get?_prepared_of_found now found, Option.map_some]
  others := by
    intro key entry missing
    have there := movable.get?_afterBack sound.tree now later key
    rw [movable.get?_prepared, missing, Option.none_or] at there
    rw [withMoved_entries, withMoved_entries, there]
    by_cases above : key ∈ ancestors destination.uri
    · obtain ⟨upper, isAbove, rfl⟩ := Trail.mem_ancestors_iff.1 above
      have outside := Trail.isWithin_uri_eq_false.2 (movable.not_within_source isAbove)
      simp [above, redated, outside, eq_comm]
    · simp [above]
  relations := by
    intro uri
    have same := movable.get?_linksAfterBack sound now later
    unfold relationsOf
    exact bind_congr fun key => congrArg (fun links => pure (links.getD [])) (same key)
  sessions := rfl

end Movable

/-- In a reachable store, what has been moved can be moved back, and the store is then what
it was, except that the directories made on the way to the destination are there and that
the moved entries are dated anew. -/
theorem moving_back_restores (reachable : Reachable store) {from_ to_ : String}
    (gave : (store.mv from_ to_ now).1 = .ok entry) (later : Tick) :
    ∃ source destination restored, normalize from_ = .ok source ∧
      normalize to_ = .ok destination ∧
      ((store.mv from_ to_ now).2.mv to_ from_ later).1 = .ok restored ∧
      IsRestored store ((store.mv from_ to_ now).2.mv to_ from_ later).2 source destination
        now later := by
  have sound := reachable.sound
  rcases mv_cases sound.tree from_ to_ now with
    ⟨_, _, refused⟩ | ⟨source, destination, sourceNormal, destinationNormal, movable, _, _, done⟩
  · rw [refused] at gave
    cases gave
  · have back := movable.back sound.tree now
    have soundAfter := movable.sound_withMoved sound now
    obtain ⟨top, _, returned⟩ := mv_of_movable soundAfter.tree
      destinationNormal sourceNormal back later
    refine ⟨source.uri, destination.uri, top.moveTo source.uri later, sourceNormal,
      destinationNormal, ?_⟩
    rw [done]
    change ((store.withMoved source destination now).mv to_ from_ later).1 = _ ∧
      IsRestored store ((store.withMoved source destination now).mv to_ from_ later).2 _ _ _ _
    rw [returned]
    exact ⟨rfl, movable.isRestored sound now later⟩

/-- A directory with a link into it comes back from a place that is made for it. -/
theorem neighbours_move_back :
    (neighbours.mv "viking://a/" "viking://x/y" 4).1 = .ok ⟨"viking://x/y", .dir, "", 0, 1, 4⟩ ∧
    ∃ source destination restored, normalize "viking://a/" = .ok source ∧
      normalize "viking://x/y" = .ok destination ∧
      ((neighbours.mv "viking://a/" "viking://x/y" 4).2.mv "viking://x/y" "viking://a/" 5).1 =
        .ok restored ∧
      IsRestored neighbours
        ((neighbours.mv "viking://a/" "viking://x/y" 4).2.mv "viking://x/y" "viking://a/" 5).2
        source destination 4 5 := by
  have reachable : Reachable neighbours := (Reachable.empty 0).run _
  have gave : (neighbours.mv "viking://a/" "viking://x/y" 4).1 =
      .ok ⟨"viking://x/y", .dir, "", 0, 1, 4⟩ := rfl
  exact ⟨gave, moving_back_restores reachable gave 5⟩

end ContextDb.Store
