import ContextDb.Proofs.Packing
import ContextDb.Proofs.Rebasing

/-!
# Paths seen from a directory

The path of an entry seen from a directory, put behind another directory, is the address
of the entry as if it had been moved there. Seen from there it is the same path again,
and addresses below one directory are in the order of their paths.
-/

namespace ContextDb

open Text Uri

namespace Uri.Trail

variable {lower upper trail source destination : Trail} {rest : List (List Char)}

/-- An entry below a directory is seen from there as the names that go on behind it. -/
theorem relative_of_eq_append (nonempty : rest ≠ []) (names : lower.names = upper.names ++ rest) :
    relative lower.uri upper.uri = String.ofList (joinWith ['/'] rest) := by
  rw [relative, isRoot_uri]
  by_cases atRoot : upper.names = []
  · simp [atRoot, uri, path_ofPath, names]
  · obtain ⟨name, others, rfl⟩ := List.exists_cons_of_ne_nil nonempty
    have isName : IsName name := lower.proper name (by simp [names])
    have behind : (dropBytes? upper.uri.utf8ByteSize lower.uri.toList).getD [] =
        '/' :: joinWith ['/'] (name :: others) := by
      rw [toList_uri_of_eq_append atRoot names, dropBytes?_append]
      simp [joinWith]
    have noSlash : (joinWith ['/'] (name :: others)).dropWhile (· == '/') =
        joinWith ['/'] (name :: others) := by
      obtain ⟨c, text, rfl⟩ := List.exists_cons_of_ne_nil isName.nonempty
      have different : c ≠ '/' := fun same => isName.slashless (same ▸ List.mem_cons_self)
      simp [joinWith, different]
    simp [atRoot, behind, noSlash]

end Uri.Trail

namespace Store

variable {lower upper trail source destination base : Trail} {rest : List (List Char)}

/-- Names that are put behind a directory are the address of what has them there. -/
theorem placed_of_eq_append (nonempty : rest ≠ []) (names : lower.names = upper.names ++ rest) :
    placed upper.uri (String.ofList (joinWith ['/'] rest)) = lower.uri := by
  rw [placed, Trail.isRoot_uri]
  apply String.toList_injective
  by_cases atRoot : upper.names = []
  · simp [atRoot, Trail.toList_uri, names]
  · obtain ⟨name, others, rfl⟩ := List.exists_cons_of_ne_nil nonempty
    simp [atRoot, Trail.toList_uri, names, Trail.joinWith_names_append atRoot]

/-- The path of an entry, put behind another directory, is its address after a move. -/
theorem placed_relative (below : trail.Below source) :
    placed destination.uri (relative trail.uri source.uri) =
      (Trail.rebase source destination trail).uri := by
  obtain ⟨rest, nonempty, names⟩ := below
  rw [Trail.relative_of_eq_append nonempty names]
  exact placed_of_eq_append nonempty (Trail.rebase_names_of_eq_append names)

/-- Put behind the same directory, the path of an entry is its address. -/
theorem placed_relative_self (below : trail.Below source) :
    placed source.uri (relative trail.uri source.uri) = trail.uri := by
  obtain ⟨rest, nonempty, names⟩ := below
  rw [Trail.relative_of_eq_append nonempty names]
  exact placed_of_eq_append nonempty names

/-- What is below the source is below the destination after a move. -/
theorem rebase_below (below : trail.Below source) :
    (Trail.rebase source destination trail).Below destination := by
  obtain ⟨rest, nonempty, names⟩ := below
  exact ⟨rest, nonempty, Trail.rebase_names_of_eq_append names⟩

/-- Moved entries lie below each other as they did before. -/
theorem rebase_below_rebase_iff (lowerBelow : lower.Below source)
    (upperBelow : upper.Below source) :
    (Trail.rebase source destination lower).Below (Trail.rebase source destination upper) ↔
      lower.Below upper := by
  obtain ⟨lowerRest, _, lowerNames⟩ := lowerBelow
  obtain ⟨upperRest, _, upperNames⟩ := upperBelow
  simp only [Trail.Below, Trail.rebase_names_of_eq_append lowerNames,
    Trail.rebase_names_of_eq_append upperNames, lowerNames, upperNames, List.append_assoc,
    List.append_cancel_left_eq]

/-- A path that has been put behind a directory is seen from there. -/
theorem relative_placed (below : trail.Below source) :
    relative (placed destination.uri (relative trail.uri source.uri)) destination.uri =
      relative trail.uri source.uri := by
  rw [placed_relative below]
  obtain ⟨rest, nonempty, names⟩ := below
  rw [Trail.relative_of_eq_append nonempty names,
    Trail.relative_of_eq_append nonempty (Trail.rebase_names_of_eq_append names)]

/-- Behind the same directory, the order of paths is that of addresses. -/
theorem placed_lt_placed_iff {base first second : String} :
    placed base first < placed base second ↔ first < second := by
  have behind : ∀ beginning : List Char,
      beginning ++ first.toList < beginning ++ second.toList ↔ first.toList < second.toList := by
    intro beginning
    induction beginning with
    | nil => exact Iff.rfl
    | cons c text inductionHypothesis =>
      rw [List.cons_append, List.cons_append, List.cons_lt_cons_iff, inductionHypothesis]
      simp
  simp only [placed, String.lt_iff]
  split <;> simp only [String.toList_append, behind]

/-- A file of a pack with a path of names goes to the address of these. -/
theorem packDestination_of_below {file : PackFile} (below : trail.Below base)
    (spelled : placed base.uri file.path = trail.uri) :
    packDestination base.uri file = .ok (placed base.uri file.path, file.content) := by
  have notBase : trail.uri ≠ base.uri := fun same =>
    Trail.not_below_self (Trail.uri_injective same ▸ below)
  refine bind_eq_ok_iff.2 ⟨trail.uri, ?_, ?_⟩
  · exact (congrArg normalize spelled).trans (normalize_uri trail)
  · rw [if_neg notBase, spelled]
    rfl

end Store

end ContextDb
