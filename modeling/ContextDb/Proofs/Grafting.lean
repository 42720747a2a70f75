import ContextDb.Proofs.Reachable

/-!
# A move is a graft

What a move requires and what it does, said once more without the steps it takes:
the subtree is cut off at the source and continued from the destination, the links
within, into and out of it are carried along, and nothing else changes but that
the directories on the way to the destination are there.
-/

namespace ContextDb.Store

open Uri

/-- What a move from one address to another requires. -/
structure CanMove (store : Store) (source destination : String) : Prop where
  sourceNotRoot : isRoot source = false
  destinationNotRoot : isRoot destination = false
  /-- The destination is not inside the subtree. -/
  notInto : isBelow destination source = false
  present : ∃ entry, store.entries.get? source = some entry
  free : store.entries.get? destination = none
  /-- No file is above the destination. -/
  noFileAbove : ∀ above ∈ ancestors destination, ∀ holder,
    store.entries.get? above = some holder → holder.isFile = false

/-- One store is another one after a subtree was cut off at the source and grafted
onto the destination. -/
structure IsGraft (before after : Store) (source destination : String) (now : Tick) : Prop where
  /-- The entries are the old ones at their new addresses, of which those that moved
  are dated anew, and a directory wherever one was missing above the destination. -/
  entries : ∀ key entry, after.entries.get? key = some entry ↔
    (∃ old held, before.entries.get? old = some held ∧ key = grafted source destination old ∧
      entry = if isWithin old source then { held with uri := key, updatedAt := now } else held) ∨
    (key ∈ ancestors destination ∧ before.entries.get? key = none ∧ entry = .newDir key now)
  /-- Links are those of the old entries, in their order, to where their targets are. -/
  links : ∀ old held, before.entries.get? old = some held →
    after.relations.get? (grafted source destination old) =
      (before.relations.get? old).map (List.map fun link =>
        { link with uri := grafted source destination link.uri })
  /-- Nothing has links but what had some before. -/
  noOtherLinks : ∀ key links, after.relations.get? key = some links →
    ∃ old held, before.entries.get? old = some held ∧ key = grafted source destination old
  sessions : after.sessions = before.sessions

variable {store : Store} {entries : SortedMap Entry} {source destination trail : Trail}
  {now : Tick}

/-- A subtree can be moved exactly if the requirements are met. -/
theorem canMove_iff_movable :
    CanMove store source.uri destination.uri ↔ Movable store.entries source destination := by
  constructor
  · intro canMove
    have notBelow := Trail.isBelow_uri_eq_false.1 canMove.notInto
    refine ⟨?_, ?_, notBelow, canMove.present, canMove.free, ?_⟩
    · simpa using canMove.sourceNotRoot
    · simpa using canMove.destinationNotRoot
    · intro above member holder found
      simpa [Entry.isFile_eq_not_isDir] using canMove.noFileAbove above member holder found
  · intro movable
    have notInto := Trail.isBelow_uri_eq_false.2 movable.notBelow
    refine ⟨?_, ?_, notInto, movable.present, movable.free, ?_⟩
    · simpa using movable.sourceNonempty
    · simpa using movable.destinationNonempty
    · intro above member holder found
      simpa [Entry.isFile_eq_not_isDir] using movable.clear above member holder found

namespace Movable

/-- A missing directory above the destination is there after a move. -/
theorem get?_afterMove_above (movable : Movable entries source destination) (tree : Tree entries)
    {key : String} (above : key ∈ ancestors destination.uri) (missing : entries.get? key = none) :
    (afterMove entries source destination now).get? key = some (.newDir key now) := by
  obtain ⟨trail, below, rfl⟩ := Trail.mem_ancestors_iff.1 above
  have outside := movable.not_within_source below
  have created : (prepared entries destination now).get? trail.uri =
      some (.newDir trail.uri now) := by
    rw [movable.get?_prepared, missing, Option.none_or, if_pos above]
  have arrived := movable.get?_afterMove tree created
  rwa [Trail.rebase_of_not_within outside, relocated,
    if_neg fun within => outside (Trail.isWithin_uri.1 within)] at arrived

/-- Nothing else is there after a move. -/
theorem origin_of_get?_afterMove (movable : Movable entries source destination)
    (tree : Tree entries) {key : String} {entry : Entry}
    (found : (afterMove entries source destination now).get? key = some entry) :
    (∃ old held, entries.get? old = some held ∧ key = grafted source.uri destination.uri old) ∨
      key ∈ ancestors destination.uri ∧ entries.get? key = none := by
  obtain ⟨trail, rfl, held, inPrepared, _⟩ := movable.exists_of_get?_afterMove tree found
  cases old : entries.get? trail.uri with
  | some held =>
    left
    exact ⟨trail.uri, held, old, (movable.grafted_eq trail).symm⟩
  | none =>
    right
    have above : trail.uri ∈ ancestors destination.uri := by
      by_contra notAbove
      simp [movable.get?_prepared, old, notAbove] at inPrepared
    have outside := movable.not_within_source (Trail.uri_mem_ancestors_iff.1 above)
    rw [Trail.rebase_of_not_within outside]
    exact ⟨above, old⟩

/-- What is where after a move. -/
theorem get?_afterMove_eq_some_iff (movable : Movable entries source destination)
    (tree : Tree entries) {key : String} {entry : Entry} :
    (afterMove entries source destination now).get? key = some entry ↔
      (∃ old held, entries.get? old = some held ∧
        key = grafted source.uri destination.uri old ∧
        entry = if isWithin old source.uri then { held with uri := key, updatedAt := now }
          else held) ∨
      (key ∈ ancestors destination.uri ∧ entries.get? key = none ∧ entry = .newDir key now) := by
  constructor
  · intro found
    rcases movable.origin_of_get?_afterMove tree found with
      ⟨old, held, foundOld, rfl⟩ | ⟨above, missing⟩
    · left
      rw [movable.get?_afterMove_grafted tree now foundOld] at found
      exact ⟨old, held, foundOld, rfl, (Option.some.inj found).symm⟩
    · right
      rw [movable.get?_afterMove_above tree above missing] at found
      exact ⟨above, missing, (Option.some.inj found).symm⟩
  · rintro (⟨old, held, foundOld, rfl, rfl⟩ | ⟨above, missing, rfl⟩)
    · exact movable.get?_afterMove_grafted tree now foundOld
    · exact movable.get?_afterMove_above tree above missing

/-- The store after a move is a graft. -/
theorem isGraft (movable : Movable store.entries source destination) (sound : Sound store)
    (now : Tick) :
    IsGraft store
      { store with
        entries := afterMove store.entries source destination now
        relations := linksAfterMove store source destination now }
      source.uri destination.uri now where
  entries := by
    intro key entry
    exact movable.get?_afterMove_eq_some_iff sound.tree
  links := by
    intro old held found
    obtain ⟨trail, rfl⟩ := sound.tree.exists_trail found
    have foundPrepared := movable.get?_prepared_of_found now found
    rw [movable.grafted_eq]
    exact movable.get?_linksAfterMove sound.tree sound.linked foundPrepared
  noOtherLinks := by
    intro key links found
    obtain ⟨trail, rfl, ⟨held, foundOld⟩, _⟩ :=
      movable.exists_of_get?_linksAfterMove sound.tree sound.linked found
    exact ⟨trail.uri, held, foundOld, (movable.grafted_eq trail).symm⟩
  sessions := rfl

end Movable

/-- A move succeeds exactly if both addresses are accepted and the requirements are met. -/
theorem mv_eq_ok_iff (tree : Tree store.entries) {from_ to_ : String} :
    (∃ entry, (store.mv from_ to_ now).1 = .ok entry) ↔
      ∃ source destination, normalize from_ = .ok source ∧ normalize to_ = .ok destination ∧
        CanMove store source destination := by
  constructor
  · rintro ⟨entry, gave⟩
    rcases mv_cases tree from_ to_ now with
      ⟨error, _, refused⟩ |
        ⟨source, destination, sourceNormal, destinationNormal, movable, _⟩
    · rw [refused] at gave
      cases gave
    · exact ⟨source.uri, destination.uri, sourceNormal, destinationNormal,
        canMove_iff_movable.2 movable⟩
  · rintro ⟨sourceUri, destinationUri, sourceNormal, destinationNormal, canMove⟩
    obtain ⟨source, rfl⟩ := exists_trail_of_normalize sourceNormal
    obtain ⟨destination, rfl⟩ := exists_trail_of_normalize destinationNormal
    obtain ⟨entry, _, done⟩ := mv_of_movable tree sourceNormal destinationNormal
      (canMove_iff_movable.1 canMove) now
    exact ⟨entry.moveTo destination.uri now, by rw [done]⟩

/-- A move that succeeds is a graft and gives the entry at the destination. -/
theorem isGraft_of_mv (sound : Sound store) {from_ to_ : String} {entry : Entry}
    (gave : (store.mv from_ to_ now).1 = .ok entry) :
    ∃ source destination, normalize from_ = .ok source ∧ normalize to_ = .ok destination ∧
      IsGraft store (store.mv from_ to_ now).2 source destination now ∧
      (store.mv from_ to_ now).2.entries.get? destination = some entry := by
  rcases mv_cases sound.tree from_ to_ now with
    ⟨error, _, refused⟩ |
      ⟨source, destination, sourceNormal, destinationNormal, movable, held, found, done⟩
  · rw [refused] at gave
    cases gave
  · have arrived := movable.get?_afterMove_destination sound.tree now found
    rw [done] at gave ⊢
    cases gave
    exact ⟨source.uri, destination.uri, sourceNormal, destinationNormal,
      movable.isGraft sound now, arrived⟩

/-- A move of a reachable store succeeds exactly if both addresses are accepted and
the requirements are met; it then grafts the subtree and gives the entry at the
destination. -/
theorem mv_grafts_subtree (reachable : Reachable store) (from_ to_ : String) (now : Tick) :
    ((∃ entry, (store.mv from_ to_ now).1 = .ok entry) ↔
      ∃ source destination, normalize from_ = .ok source ∧ normalize to_ = .ok destination ∧
        CanMove store source destination) ∧
    ∀ entry, (store.mv from_ to_ now).1 = .ok entry →
      ∃ source destination, normalize from_ = .ok source ∧ normalize to_ = .ok destination ∧
        IsGraft store (store.mv from_ to_ now).2 source destination now ∧
        (store.mv from_ to_ now).2.entries.get? destination = some entry := by
  have sound := reachable.sound
  constructor
  · exact mv_eq_ok_iff sound.tree
  · intro entry gave
    exact isGraft_of_mv sound gave

/-- A store with a directory, a file next to it whose name begins alike, and a link
to what is in the directory. -/
def neighbours : Store :=
  (empty 0).run [
    (⟨1, ⟨0⟩⟩, .addResource "viking://a/b" "text"),
    (⟨2, ⟨0⟩⟩, .addResource "viking://ab" "more"),
    (⟨3, ⟨0⟩⟩, .link "viking://ab" ["viking://a/b"] "see")]

theorem neighbours_mv_grafts :
    ∃ source destination, normalize "viking://a/" = .ok source ∧
      normalize "viking://x/y" = .ok destination ∧
      IsGraft neighbours (neighbours.mv "viking://a/" "viking://x/y" 4).2 source destination 4 ∧
      (neighbours.mv "viking://a/" "viking://x/y" 4).2.entries.get? destination =
        some ⟨"viking://x/y", .dir, "", 0, 1, 4⟩ := by
  have reachable : Reachable neighbours := (Reachable.empty 0).run _
  exact (mv_grafts_subtree reachable "viking://a/" "viking://x/y" 4).2 _ rfl

example : (neighbours.mv "viking://a/" "viking://x/y" 4).2.entries.keys =
    ["viking://", "viking://ab", "viking://x", "viking://x/y", "viking://x/y/b"] := rfl

end ContextDb.Store
