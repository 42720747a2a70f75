import ContextDb.Proofs.Traversal
import ContextDb.Proofs.Trail
import ContextDb.Store.Links
import ContextDb.Store.Packs
import ContextDb.Store.Search
import ContextDb.Store.Sessions

/-!
# What reading can fail for

An operation that only reads can fail for what it was asked, but never for an
internal reason. This is put together along its steps.
-/

namespace ContextDb

open Uri

variable {α β : Type}

/-- A result that may be an error, but not an internal one. -/
def NeverInternal (result : Except Error α) : Prop :=
  ∀ error, result = .error error → error.code ≠ .internal

namespace NeverInternal

theorem ok (value : α) : NeverInternal (.ok value) :=
  nofun

theorem error {error : Error} (known : error.code ≠ .internal) :
    NeverInternal (.error error : Except Error α) := by
  rintro _ ⟨⟩
  exact known

theorem bind {first : Except Error α} {next : α → Except Error β} (firstNever : NeverInternal first)
    (nextNever : ∀ value, NeverInternal (next value)) : NeverInternal (first >>= next) := by
  intro error failed
  rcases bind_eq_error_iff.1 failed with here | ⟨value, _, there⟩
  · exact firstNever error here
  · exact nextNever value error there

/-- A check that goes on unless something is wrong. -/
theorem checked {wrong : Prop} [Decidable wrong] {error : Error} {next : PUnit → Except Error α}
    (known : error.code ≠ .internal) (nextNever : NeverInternal (next ())) :
    NeverInternal (if wrong then throw error >>= next else next ()) := by
  split
  · exact bind (.error known) fun _ => nextNever
  · exact nextNever

end NeverInternal

theorem neverInternal_normalize (uri : String) : NeverInternal (normalize uri) := by
  intro error failed
  obtain ⟨reason, rfl⟩ := exists_invalidUri_of_normalize failed
  simp [Error.code]

namespace Store

variable {store : Store}

theorem neverInternal_entryAt (target : String) : NeverInternal (store.entryAt target) := by
  unfold entryAt
  split
  · exact .ok _
  · exact .error (by simp [Error.code])

theorem neverInternal_listResources (under : Option String) :
    NeverInternal (store.listResources under) :=
  (neverInternal_normalize _).bind fun _ => .ok _

theorem neverInternal_stat (uri : String) : NeverInternal (store.stat uri) :=
  (neverInternal_normalize uri).bind neverInternal_entryAt

theorem neverInternal_ls (uri : String) : NeverInternal (store.ls uri) := by
  refine (neverInternal_normalize uri).bind fun target => ?_
  refine (neverInternal_entryAt target).bind fun dir => ?_
  split
  · exact .ok _
  · exact .error (by simp [Error.code])

theorem neverInternal_read (uri : String) : NeverInternal (store.read uri) := by
  refine (neverInternal_normalize uri).bind fun target => ?_
  refine (neverInternal_entryAt target).bind fun entry => ?_
  split
  · exact .error (by simp [Error.code])
  · exact .ok _

theorem neverInternal_abstractOf (uri : String) : NeverInternal (store.abstractOf uri) := by
  refine (neverInternal_normalize uri).bind fun target => ?_
  refine (neverInternal_entryAt target).bind fun entry => ?_
  split
  · exact .ok _
  · exact .ok _

theorem neverInternal_find (query : String) (target : Option String) (limit : Nat) :
    NeverInternal (store.find query target limit) := by
  refine (neverInternal_normalize _).bind fun base => ?_
  exact .checked (by simp [Error.code]) (.ok _)

theorem neverInternal_grep (target pattern : String) (caseInsensitive : Bool) :
    NeverInternal (store.grep target pattern caseInsensitive) := by
  refine (neverInternal_normalize target).bind fun base => ?_
  refine .checked (by simp [Error.code]) ?_
  exact .checked (by simp [Error.code]) (.ok _)

theorem neverInternal_glob (pattern : String) (target : Option String) :
    NeverInternal (store.glob pattern target) := by
  refine (neverInternal_normalize _).bind fun base => ?_
  split
  · exact .error (by simp [badPattern, Error.code])
  · exact .ok _

theorem neverInternal_exportPack (uri : String) : NeverInternal (store.exportPack uri) := by
  refine (neverInternal_normalize uri).bind fun base => ?_
  refine (neverInternal_entryAt base).bind fun top => ?_
  split
  · exact .ok _
  · exact .ok _

theorem neverInternal_relationsOf (uri : String) : NeverInternal (store.relationsOf uri) :=
  (neverInternal_normalize uri).bind fun _ => .ok _

theorem neverInternal_getSession (id : Uuid) : NeverInternal (store.getSession id) := by
  unfold getSession
  split
  · exact .ok _
  · exact .error (by simp [noSession, Error.code])

end Store

end ContextDb
