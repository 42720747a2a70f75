import ContextDb.Proofs.ByteOrder
import ContextDb.Proofs.Linking
import ContextDb.Store.Operation

/-!
# A removal is a cut

What a removal requires and what it does, said once more without the steps it takes: the
entry goes with all that lies below it, the links from and to what goes are dropped, and
everything else stays as it is, whatever its address begins with.
-/

namespace ContextDb.Store

open Uri Text

/-- One store is another one after a subtree was cut off, of which these were the
addresses. -/
structure IsPruned (before after : Store) (target : String) (gone : List String) : Prop where
  /-- The addresses are that of the entry and then, in the order of their bytes, those of
  the entries whose addresses go on behind it. -/
  named : ∃ below, gone = target :: below ∧
    (below.Pairwise fun first second => bytesOf first < bytesOf second) ∧
    ∀ key, key ∈ below ↔
      Extends key target ∧ ∃ entry, before.entries.get? key = some entry
  /-- None is named twice. -/
  distinct : gone.Nodup
  /-- These are gone, and every other entry is what it was. -/
  entries : ∀ key, after.entries.get? key =
    if key ∈ gone then none else before.entries.get? key
  /-- What is gone has no links, and the others have theirs, in their order, but for those
  that led to what is gone. -/
  links : ∀ key, after.relations.get? key =
    if key ∈ gone then none
    else (before.relations.get? key).map (List.filter fun link => link.uri ∉ gone)
  sessions : after.sessions = before.sessions

variable {store : Store} {target : String} {recursive : Bool}

/-- The addresses that a removal names stand in the order of their bytes. -/
theorem pairwise_below (entries : SortedMap Entry) (target : String) :
    (entries.keys.filter (isBelow · target)).Pairwise fun first second =>
      bytesOf first < bytesOf second := by
  have ordered : entries.keys.Pairwise fun first second => bytesOf first < bytesOf second :=
    List.pairwise_map.2 (entries.sorted.imp bytesOf_lt_iff.2)
  exact ordered.filter _

/-- A removal names nothing twice. -/
theorem nodup_removed (entries : SortedMap Entry) (notRoot : isRoot target = false) :
    (removed entries target).Nodup := by
  refine List.nodup_cons.2 ⟨fun member => ?_, (SortedMap.nodup_keys entries).filter _⟩
  have below : isBelow target target = true := by simpa using (List.mem_filter.1 member).2
  obtain ⟨rest, longer⟩ := (isBelow_iff_extends notRoot).1 below
  have sizes := congrArg String.length longer
  simp only [String.length_append] at sizes
  have slash : "/".length = 1 := rfl
  omega

/-- The store after a removal is cut. -/
theorem isPruned_afterRemoval (canRemove : CanRemove store target recursive) :
    IsPruned store (afterRemoval store target) target (removed store.entries target) where
  named := by
    refine ⟨_, rfl, pairwise_below store.entries target, fun key => ?_⟩
    rw [List.mem_filter, SortedMap.mem_keys_iff, isBelow_iff_extends canRemove.notRoot, and_comm]
  distinct := nodup_removed store.entries canRemove.notRoot
  entries key := SortedMap.get?_foldl_erase _ _ _
  links key := by
    rw [afterRemoval, get?_relationsWithout]
    simp
  sessions := rfl

/-- A removal succeeds exactly if the address is accepted and the requirements are met; it
then cuts off the subtree and names what is gone. -/
theorem rm_prunes_subtree (store : Store) (uri : String) (recursive : Bool) :
    ((∃ gone, (store.rm uri recursive).1 = .ok gone) ↔
      ∃ target, normalize uri = .ok target ∧ CanRemove store target recursive) ∧
    ∀ gone, (store.rm uri recursive).1 = .ok gone →
      ∃ target, normalize uri = .ok target ∧
        IsPruned store (store.rm uri recursive).2 target gone := by
  constructor
  · constructor
    · rintro ⟨gone, gave⟩
      rcases rm_cases store uri recursive with ⟨_, _, refused⟩ | ⟨trail, normalized, canRemove, _⟩
      · rw [refused] at gave
        cases gave
      · exact ⟨trail.uri, normalized, canRemove⟩
    · rintro ⟨target, normalized, canRemove⟩
      exact ⟨_, by rw [rm_of_canRemove normalized canRemove]⟩
  · intro gone gave
    rcases rm_cases store uri recursive with ⟨_, _, refused⟩ | ⟨trail, normalized, canRemove, done⟩
    · rw [refused] at gave
      cases gave
    · rw [done] at gave ⊢
      cases gave
      exact ⟨trail.uri, normalized, isPruned_afterRemoval canRemove⟩

/-- A directory goes with what is in it and a link to that; an entry whose name begins like
its own stays, and so does what is in that. -/
example :
    let store := (empty 0).run [(⟨1, ⟨0⟩⟩, .addResource "viking://a/b" "x"),
      (⟨2, ⟨0⟩⟩, .addResource "viking://ab/c" "y"),
      (⟨3, ⟨0⟩⟩, .link "viking://ab" ["viking://a/b", "viking://ab/c"] "see")]
    (store.rm "viking://a/" true).1 = .ok ["viking://a", "viking://a/b"] ∧
      (store.rm "viking://a/" true).2.entries.keys =
        ["viking://", "viking://ab", "viking://ab/c"] ∧
      (store.rm "viking://a/" true).2.relations.get? "viking://ab" =
        some [⟨"viking://ab/c", "see"⟩] := by
  decide

end ContextDb.Store
