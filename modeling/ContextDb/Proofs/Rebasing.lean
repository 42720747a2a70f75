import ContextDb.Proofs.Trail
import ContextDb.Store.Tree

/-!
# The address that a moved entry gets

`renamed` cuts a moved address at a byte offset and puts the destination in front
of what is left. On trails this replaces the names of the source by those of the
destination, which keeps parents and tells moved entries apart.
-/

namespace ContextDb

open Text Uri

namespace Uri.Trail

variable {source destination trail first second : Trail} {rest : List (List Char)}

/-- The trail of an entry after a move: the part inside the source is kept, an
entry outside stays where it is. -/
def rebase (source destination trail : Trail) : Trail :=
  if source.names.isPrefixOf trail.names then
    destination.append (trail.names.drop source.names.length) fun name member =>
      trail.proper name (List.mem_of_mem_drop member)
  else trail

theorem isPrefixOf_names_iff :
    source.names.isPrefixOf trail.names = true ↔ trail.Within source := by
  rw [List.isPrefixOf_iff_prefix]
  exact exists_congr fun rest => eq_comm

theorem rebase_names_of_eq_append (names : trail.names = source.names ++ rest) :
    (rebase source destination trail).names = destination.names ++ rest := by
  simp [rebase, append, names]

theorem rebase_of_not_within (outside : ¬ trail.Within source) :
    rebase source destination trail = trail := by
  have notPrefix : source.names.isPrefixOf trail.names = false := by
    rw [← Bool.not_eq_true, isPrefixOf_names_iff]
    exact outside
  simp [rebase, notPrefix]

/-- The source itself arrives at the destination. -/
theorem rebase_source : rebase source destination source = destination := by
  apply Trail.ext
  rw [rebase_names_of_eq_append (List.append_nil _).symm, List.append_nil]

/-- A move to where it comes from moves nothing. -/
theorem rebase_self (within : trail.Within source) : rebase source source trail = trail := by
  obtain ⟨rest, names⟩ := within
  apply Trail.ext
  rw [rebase_names_of_eq_append names, names]

/-- What lies within the source comes to lie within the destination. -/
theorem rebase_within (within : trail.Within source) :
    (rebase source destination trail).Within destination := by
  obtain ⟨rest, names⟩ := within
  exact ⟨rest, rebase_names_of_eq_append names⟩

/-- Entries outside the destination stay apart. -/
theorem rebase_injective (firstOutside : ¬ first.Within destination)
    (secondOutside : ¬ second.Within destination)
    (same : rebase source destination first = rebase source destination second) :
    first = second := by
  by_cases firstMoves : first.Within source
  · by_cases secondMoves : second.Within source
    · obtain ⟨firstRest, firstNames⟩ := firstMoves
      obtain ⟨secondRest, secondNames⟩ := secondMoves
      have names := congrArg Trail.names same
      rw [rebase_names_of_eq_append firstNames, rebase_names_of_eq_append secondNames] at names
      apply Trail.ext
      rw [firstNames, secondNames, List.append_cancel_left names]
    · rw [rebase_of_not_within secondMoves] at same
      exact absurd (same ▸ rebase_within firstMoves) secondOutside
  · rw [rebase_of_not_within firstMoves] at same
    by_cases secondMoves : second.Within source
    · exact absurd (same ▸ rebase_within secondMoves) firstOutside
    · rw [same, rebase_of_not_within secondMoves]

/-- Of what was outside the destination, only what was within the source is within it. -/
theorem rebase_within_iff (outside : ¬ trail.Within destination) :
    (rebase source destination trail).Within destination ↔ trail.Within source := by
  by_cases moved : trail.Within source
  · exact ⟨fun _ => moved, rebase_within⟩
  · rw [rebase_of_not_within moved]
    exact ⟨fun within => absurd within outside, fun within => absurd within moved⟩

/-- A move in the opposite direction takes everything back. -/
theorem rebase_rebase (outside : ¬ trail.Within destination) :
    rebase destination source (rebase source destination trail) = trail := by
  by_cases within : trail.Within source
  · obtain ⟨rest, names⟩ := within
    apply Trail.ext
    rw [rebase_names_of_eq_append (rebase_names_of_eq_append names), names]
  · rw [rebase_of_not_within within, rebase_of_not_within outside]

/-- Below the source, directories move along with what they hold. -/
theorem rebase_parent (below : trail.Below source) :
    (rebase source destination trail).parent = rebase source destination trail.parent := by
  obtain ⟨rest, nonempty, names⟩ := below
  have parentNames : trail.parent.names = source.names ++ rest.dropLast := by
    simp only [parent, names, List.dropLast_append_of_ne_nil nonempty]
  apply Trail.ext
  rw [rebase_names_of_eq_append parentNames, parent]
  simp only [rebase_names_of_eq_append names, List.dropLast_append_of_ne_nil nonempty]

/-- An address within another one goes on with a slash before each further name. -/
theorem toList_uri_of_eq_append (nonempty : source.names ≠ [])
    (names : trail.names = source.names ++ rest) :
    trail.uri.toList = source.uri.toList ++ rest.flatMap (['/'] ++ ·) := by
  rw [toList_uri, toList_uri, names, joinWith_append _ nonempty, List.append_assoc]

end Uri.Trail

namespace Store

variable {source destination trail : Trail}

/-- The graft of a subtree: an address that is another one or lies below it is
continued from the destination instead, any other one is left as it is. -/
def grafted (source destination uri : String) : String :=
  if isWithin uri source then
    destination ++ String.ofList (uri.toList.drop source.toList.length)
  else uri

/-- Putting the destination in front of the remaining names spells the new trail. -/
theorem uri_append_eq_rebase (destinationNonempty : destination.names ≠ [])
    {rest : List (List Char)} (names : trail.names = source.names ++ rest) :
    destination.uri ++ String.ofList (rest.flatMap (['/'] ++ ·)) =
      (Trail.rebase source destination trail).uri := by
  apply String.toList_injective
  rw [String.toList_append, String.toList_ofList,
    Trail.toList_uri_of_eq_append destinationNonempty (Trail.rebase_names_of_eq_append names)]

/-- On addresses of trails, the graft replaces the leading names. -/
theorem grafted_uri (sourceNonempty : source.names ≠ [])
    (destinationNonempty : destination.names ≠ []) (trail : Trail) :
    grafted source.uri destination.uri trail.uri =
      (Trail.rebase source destination trail).uri := by
  by_cases within : trail.Within source
  · obtain ⟨rest, names⟩ := within
    have shape := Trail.toList_uri_of_eq_append sourceNonempty names
    rw [grafted, if_pos (Trail.isWithin_uri.2 ⟨rest, names⟩), shape, List.drop_left]
    exact uri_append_eq_rebase destinationNonempty names
  · have outside : isWithin trail.uri source.uri = false := Trail.isWithin_uri_eq_false.2 within
    rw [grafted, outside, Trail.rebase_of_not_within within]
    rfl

/-- The cut at a byte offset falls where the names of the source end. -/
theorem renamed_uri (sourceNonempty : source.names ≠ [])
    (destinationNonempty : destination.names ≠ []) (within : trail.Within source) :
    renamed source.uri destination.uri trail.uri =
      (Trail.rebase source destination trail).uri := by
  obtain ⟨rest, names⟩ := within
  rw [renamed, Trail.toList_uri_of_eq_append sourceNonempty names, dropBytes?_append]
  exact uri_append_eq_rebase destinationNonempty names

end Store

end ContextDb
