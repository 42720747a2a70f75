import ContextDb.Proofs.Conversing
import ContextDb.Proofs.Linking
import ContextDb.Proofs.Packing
import ContextDb.Store.Operation

/-!
# Reachable stores

A store is sound if its entries form a tree and its links are intact. The new
store is sound, and every operation keeps a store sound, whether it succeeds or
fails; so every store that a run of operations can lead to is.
-/

namespace ContextDb.Store

open Uri

/-- What holds of a store at all times. -/
structure Sound (store : Store) : Prop where
  tree : Tree store.entries
  linked : Linked store.entries store.relations

namespace Sound

variable {store after : Store}

theorem of_grown (sound : Sound store) (grown : Grown store after) : Sound after where
  tree := grown.tree
  linked := grown.relations ▸ sound.linked.grow grown.covered

theorem of_relinked (sound : Sound store) (relinked : Relinked store after) : Sound after where
  tree := relinked.entries ▸ sound.tree
  linked := relinked.linked

/-- Sessions have no part in it. -/
theorem of_sessions (sound : Sound store) (entries : after.entries = store.entries)
    (relations : after.relations = store.relations) : Sound after where
  tree := entries ▸ sound.tree
  linked := by
    rw [entries, relations]
    exact sound.linked

theorem of_refused (sound : Sound store) {α : Type} {outcome : Outcome α}
    (refused : Refused store outcome) : Sound outcome.2 := by
  obtain ⟨_, _, rfl⟩ := refused
  exact sound

end Sound

/-- The new store is sound. -/
theorem sound_empty (now : Tick) : Sound (empty now) where
  tree := by
    have held : ∀ {key entry}, (empty now).entries.get? key = some entry →
        key = Trail.root.uri ∧ entry = .newDir Trail.root.uri now := by
      intro key entry found
      rw [Trail.uri_root]
      simp only [empty, SortedMap.get?_single] at found
      split at found
      · rename_i same
        exact ⟨same.symm, (Option.some.inj found).symm⟩
      · cases found
    refine ⟨⟨.newDir scheme now, by simp [empty], rfl⟩, ?_, ?_⟩
    · intro key entry found
      obtain ⟨rfl, rfl⟩ := held found
      exact .newDir Trail.root now
    · intro key entry above found isParent
      obtain ⟨rfl, _⟩ := held found
      rw [Trail.parent?_uri_root] at isParent
      cases isParent
  linked := Linked.empty _

variable {store : Store}

/-- A removal keeps a store sound. -/
theorem sound_rm (sound : Sound store) (uri : String) (recursive : Bool) :
    Sound (store.rm uri recursive).2 := by
  rcases rm_cases store uri recursive with refused | ⟨trail, _, canRemove, done⟩
  · exact sound.of_refused refused
  · have nonempty : trail.names ≠ [] := by simpa using canRemove.notRoot
    have kept := get?_foldl_erase_removed store.entries trail.uri
    rw [done]
    exact ⟨tree_of_removed sound.tree nonempty kept, linked_of_removed sound.linked trail.uri kept⟩

/-- A move keeps a store sound. -/
theorem sound_mv (sound : Sound store) (source destination : String) (now : Tick) :
    Sound (store.mv source destination now).2 := by
  rcases mv_cases sound.tree source destination now with
    refused | ⟨_, _, _, _, movable, _, _, done⟩
  · exact sound.of_refused refused
  · rw [done]
    exact ⟨movable.tree_afterMove sound.tree now,
      movable.linked_afterMove sound.tree sound.linked now⟩

/-- Removing a session keeps a store sound. -/
theorem sound_deleteSession (sound : Sound store) (id : Uuid) :
    Sound (store.deleteSession id).2 := by
  rcases deleteSession_cases store id with refused | ⟨_, done⟩
  · exact sound.of_refused refused
  · rw [done]
    exact sound.of_sessions rfl rfl

/-- A message keeps a store sound. -/
theorem sound_addMessage (sound : Sound store) (id : Uuid) (role content : String) (now : Tick) :
    Sound (store.addMessage id role content now).2 := by
  rcases addMessage_cases store id role content now with refused | ⟨_, _, _, done⟩
  · exact sound.of_refused refused
  · rw [done]
    exact sound.of_sessions rfl rfl

/-- Every operation keeps a store sound, whether it succeeds or fails. -/
theorem sound_step (sound : Sound store) (moment : Moment) (operation : Operation) :
    Sound (store.step moment operation).2 := by
  cases operation with
  | addResource uri content =>
    exact sound.of_grown (grown_addResource sound.tree uri content moment.now)
  | mkdir uri => exact sound.of_grown (grown_mkdir sound.tree uri moment.now)
  | importPack uri files => exact sound.of_grown (grown_importPack sound.tree uri files moment.now)
  | rm uri recursive => exact sound_rm sound uri recursive
  | mv source destination => exact sound_mv sound source destination moment.now
  | link source targets reason =>
    exact sound.of_relinked (relinked_link sound.linked source targets reason)
  | unlink source target => exact sound.of_relinked (relinked_unlink sound.linked source target)
  | createSession => exact sound.of_sessions rfl rfl
  | deleteSession id => exact sound_deleteSession sound id
  | addMessage id role content => exact sound_addMessage sound id role content moment.now
  | listResources | stat | ls | read | abstractOf | find | grep | glob | exportPack | relations
  | listSessions | getSession => exact sound

/-! ## Runs -/

/-- A store that operations lead to, beginning with a new one. -/
inductive Reachable : Store → Prop where
  | empty (now : Tick) : Reachable (empty now)
  | step {before : Store} (prior : Reachable before) (moment : Moment) (operation : Operation) :
      Reachable (before.step moment operation).2

/-- A reachable store is sound. -/
theorem Reachable.sound (reachable : Reachable store) : Sound store := by
  induction reachable with
  | empty now => exact sound_empty now
  | step _ moment operation inductionHypothesis =>
    exact sound_step inductionHypothesis moment operation

/-- Operations lead from reachable stores to reachable stores. -/
theorem Reachable.run (reachable : Reachable store) (operations : List (Moment × Operation)) :
    Reachable (store.run operations) := by
  induction operations generalizing store with
  | nil => exact reachable
  | cons first others inductionHypothesis =>
    exact inductionHypothesis (reachable.step first.1 first.2)

/-- The reachable stores are those that runs on a new store end with. -/
theorem reachable_iff_exists_run :
    Reachable store ↔ ∃ now operations, store = (empty now).run operations := by
  constructor
  · intro reachable
    induction reachable with
    | empty now => exact ⟨now, [], rfl⟩
    | step _ moment operation inductionHypothesis =>
      obtain ⟨now, operations, rfl⟩ := inductionHypothesis
      refine ⟨now, operations ++ [(moment, operation)], ?_⟩
      simp [Store.run, List.foldl_append]
  · rintro ⟨now, operations, rfl⟩
    exact (Reachable.empty now).run operations

/-- Whatever operations are performed on a new store, with whatever success: the
entries form a tree, and only directories have anything below them. -/
theorem entries_of_run_are_tree (now : Tick) (operations : List (Moment × Operation)) :
    Tree ((empty now).run operations).entries ∧
      ∀ lower upper entry holder,
        ((empty now).run operations).entries.get? lower = some entry →
        ((empty now).run operations).entries.get? upper = some holder →
        isBelow lower upper = true → holder.isDir = true := by
  have tree := ((Reachable.empty now).run operations).sound.tree
  refine ⟨tree, ?_⟩
  intro lower upper entry holder foundLower foundUpper below
  obtain ⟨lowerTrail, rfl⟩ := tree.exists_trail foundLower
  obtain ⟨upperTrail, rfl⟩ := tree.exists_trail foundUpper
  obtain ⟨dir, foundDir, isDir⟩ := tree.above foundLower (Trail.isBelow_uri.1 below)
  rw [foundUpper] at foundDir
  cases foundDir
  exact isDir

/-- Whatever operations are performed on a new store, with whatever success: links
lead from entries to entries, and none is there twice. -/
theorem links_of_run_are_intact (now : Tick) (operations : List (Moment × Operation)) :
    Linked ((empty now).run operations).entries ((empty now).run operations).relations :=
  ((Reachable.empty now).run operations).sound.linked

end ContextDb.Store
