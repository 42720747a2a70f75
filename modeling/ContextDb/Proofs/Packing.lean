import ContextDb.Proofs.Traversal
import ContextDb.Proofs.Writing
import ContextDb.Store.Packs

/-!
# Unpacking

Unpacking is a sequence of writes. It only adds to the tree, and once all
addresses are accepted nothing can go wrong but that something is in the way.
-/

namespace ContextDb.Store

open Text Uri

variable {store : Store} {base : Trail} {now : Tick}

/-- A sequence of writes ends with the first that is refused. -/
theorem writeAll_cons_of_error {uri content : String} {error : Error} {after : Store}
    (refused : store.addResource uri content now = (.error error, after))
    (others : List (String × String)) :
    writeAll now ((uri, content) :: others) store = (.error error, after) := by
  simp only [writeAll, refused]

/-- A sequence of writes goes on where the first has left the store. -/
theorem writeAll_cons_of_ok {uri content : String} {entry : Entry} {after : Store}
    (wrote : store.addResource uri content now = (.ok entry, after))
    (others : List (String × String)) :
    writeAll now ((uri, content) :: others) store =
      ((writeAll now others after).1.map (entry.uri :: ·), (writeAll now others after).2) := by
  simp only [writeAll, wrote]
  rcases writeAll now others after with ⟨_ | _, last⟩ <;> rfl

/-- What every write keeps, a sequence of writes keeps, even if it ends early. -/
theorem writeAll_keeps {Holds : Store → Prop} {planned : List (String × String)}
    (kept : ∀ file ∈ planned, ∀ store, Holds store → Holds (store.addResource file.1 file.2 now).2)
    (holds : Holds store) : Holds (writeAll now planned store).2 := by
  induction planned generalizing store with
  | nil => exact holds
  | cons first others inductionHypothesis =>
    obtain ⟨uri, content⟩ := first
    have after := kept (uri, content) List.mem_cons_self store holds
    cases wrote : store.addResource uri content now with
    | mk result written =>
      rw [wrote] at after
      cases result with
      | error error =>
        rw [writeAll_cons_of_error wrote]
        exact after
      | ok entry =>
        rw [writeAll_cons_of_ok wrote]
        exact inductionHypothesis
          (fun file member => kept file (List.mem_cons_of_mem _ member)) after

/-- A sequence of writes only adds to the tree, even if it ends early. -/
theorem grown_writeAll (tree : Tree store.entries) (planned : List (String × String))
    (now : Tick) : Grown store (writeAll now planned store).2 := by
  have kept : ∀ file ∈ planned, ∀ middle, Grown store middle →
      Grown store (middle.addResource file.1 file.2 now).2 := by
    intro file _ middle grown
    exact grown.trans (grown_addResource grown.tree file.1 file.2 now)
  exact writeAll_keeps kept (.refl tree)

/-! ## Refusals -/

/-- The spelling of the address that a path has below a directory: it goes on behind
that of the directory, with a slash unless that is the root. -/
def placed (base path : String) : String :=
  if isRoot base then base ++ path else base ++ "/" ++ path

/-- Such a spelling names something within the directory. -/
theorem within_of_placed {path : String} {trail : Trail}
    (normalized : normalize (placed base.uri path) = .ok trail.uri) : trail.Within base := by
  obtain ⟨spelled, rest, same, spelling, names⟩ := exists_names_of_normalize normalized
  obtain rfl := Trail.uri_injective same
  refine ⟨(pieces '/' path.toList).filter (!·.isEmpty), ?_⟩
  rw [placed, Trail.isRoot_uri] at spelling
  by_cases atRoot : base.names = []
  · have restEq : rest = path.toList := by
      have shape : base.uri.toList ++ path.toList = scheme.toList ++ rest := by
        simpa [atRoot] using spelling
      rw [Trail.uri_eq_scheme_iff.2 atRoot] at shape
      exact (List.append_cancel_left shape).symm
    rw [names, restEq, atRoot, List.nil_append]
  · have restEq : rest = joinWith ['/'] base.names ++ '/' :: path.toList := by
      have shape : base.uri.toList ++ '/' :: path.toList = scheme.toList ++ rest := by
        simpa [atRoot] using spelling
      rw [Trail.toList_uri, List.append_assoc] at shape
      exact (List.append_cancel_left shape).symm
    rw [names, restEq, pieces_joinWith_append atRoot base.slashless, List.filter_append,
      base.filter_names]

/-- The files of a pack go strictly below the directory they are unpacked in. -/
theorem exists_below_of_packDestination {file : PackFile} {planned : String × String}
    (accepted : packDestination base.uri file = .ok planned) :
    ∃ trail : Trail, planned.1 = trail.uri ∧ trail.Below base := by
  obtain ⟨destination, normalized, rest⟩ := bind_eq_ok_iff.1 accepted
  obtain ⟨trail, rfl⟩ := exists_trail_of_normalize normalized
  have within := within_of_placed normalized
  split at rest
  · cases rest
  · rename_i notBase
    cases rest
    refine ⟨trail, rfl, ?_⟩
    rcases Trail.within_iff.1 within with rfl | below
    · exact absurd rfl notBase
    · exact below

/-- All files of an accepted pack go strictly below the directory. -/
theorem exists_below_of_accepted {files : List PackFile} {planned : List (String × String)}
    (accepted : files.mapM (packDestination base.uri) = .ok planned) :
    ∀ pair ∈ planned, ∃ trail : Trail, pair.1 = trail.uri ∧ trail.Below base := by
  intro pair member
  obtain ⟨file, _, here⟩ := exists_of_mem_mapM accepted member
  exact exists_below_of_packDestination here

/-- An address is refused for what the pack says, not for an internal reason. -/
theorem code_of_packDestination {file : PackFile} {error : Error}
    (refused : packDestination base.uri file = .error error) : error.code ≠ .internal := by
  rcases bind_eq_error_iff.1 refused with failed | ⟨destination, _, rest⟩
  · obtain ⟨reason, rfl⟩ := exists_invalidUri_of_normalize failed
    simp [Error.code]
  · split at rest
    · cases rest
      simp [Error.code]
    · cases rest

/-- Once the addresses are accepted, a write can only find something in its way. -/
theorem exists_of_writeAll_eq_error {planned : List (String × String)} {error : Error}
    (tree : Tree store.entries)
    (inside : ∀ pair ∈ planned, ∃ trail : Trail, pair.1 = trail.uri ∧ trail.names ≠ [])
    (failed : (writeAll now planned store).1 = .error error) :
    ∃ what, error = .alreadyExists what := by
  induction planned generalizing store with
  | nil => cases failed
  | cons first others inductionHypothesis =>
    obtain ⟨uri, content⟩ := first
    obtain ⟨trail, rfl, nonempty⟩ := inside _ List.mem_cons_self
    have othersInside := fun pair member => inside pair (List.mem_cons_of_mem _ member)
    have grown := grown_addResource tree trail.uri content now
    rcases addResource_uri_cases tree nonempty content now with ⟨what, refused⟩ | ⟨_, _, wrote⟩
    · rw [writeAll_cons_of_error refused] at failed
      cases failed
      exact ⟨what, rfl⟩
    · rw [wrote] at grown
      rw [writeAll_cons_of_ok wrote] at failed
      cases later : (writeAll now others _).1 with
      | ok written =>
        rw [later] at failed
        cases failed
      | error reason =>
        rw [later] at failed
        cases failed
        exact inductionHypothesis grown.tree othersInside later

/-- Unpacking is refused, or the addresses of all files are accepted and the files
are written one after another. -/
theorem importPack_cases (store : Store) (uri : String) (files : List PackFile) (now : Tick) :
    Refused store (store.importPack uri files now) ∨
      ∃ (base : Trail) (planned : List (String × String)), normalize uri = .ok base.uri ∧
        files.mapM (packDestination base.uri) = .ok planned ∧
        store.importPack uri files now = writeAll now planned store := by
  cases normalized : normalize uri with
  | error error =>
    rw [importPack, withUri_of_error normalized]
    exact .inl (refused_of_normalize normalized)
  | ok normal =>
    obtain ⟨base, rfl⟩ := exists_trail_of_normalize normalized
    rw [importPack, withUri_of_ok normalized]
    split
    · exact .inl ⟨_, by simp [Error.code], rfl⟩
    · split
      · rename_i error failed
        obtain ⟨file, _, fileFailed⟩ := exists_of_mapM_eq_error failed
        exact .inl ⟨error, code_of_packDestination fileFailed, rfl⟩
      · rename_i planned accepted
        exact .inr ⟨base, planned, rfl, accepted, rfl⟩

/-- Unpacking only adds to the tree, even if it ends early. -/
theorem grown_importPack (tree : Tree store.entries) (uri : String) (files : List PackFile)
    (now : Tick) : Grown store (store.importPack uri files now).2 := by
  rcases importPack_cases store uri files now with refused | ⟨_, planned, _, _, same⟩
  · exact refused.grown tree
  · rw [same]
    exact grown_writeAll tree planned now

/-- Unpacking that fails is refused, unless something is in the way of a file. -/
theorem refused_of_importPack (tree : Tree store.entries) {uri : String} {files : List PackFile}
    {error : Error} (failed : (store.importPack uri files now).1 = .error error) :
    Refused store (store.importPack uri files now) ∨ ∃ what, error = .alreadyExists what := by
  rcases importPack_cases store uri files now with refused | ⟨base, planned, _, accepted, same⟩
  · exact .inl refused
  · right
    rw [same] at failed
    refine exists_of_writeAll_eq_error tree (fun pair member => ?_) failed
    obtain ⟨trail, spelled, below⟩ := exists_below_of_accepted accepted pair member
    exact ⟨trail, spelled, below.names_ne_nil⟩

end ContextDb.Store
