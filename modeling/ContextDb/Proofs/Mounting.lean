import ContextDb.Proofs.Pieces
import ContextDb.Proofs.Traversal
import ContextDb.Server.Application
import Mathlib.Data.List.DropRight

/-!
# Mounting

The routes to the service for agents take the paths at or below the mount path and
no others. None of these paths belongs to the documentation, so nothing else answers
there.
-/

namespace ContextDb

open Text

/-! ## Paths at or below others -/

namespace Config

variable {path base other : String}

/-- A path is at or below another if it continues it with nothing or with a slash. -/
theorem isAtOrBelow_iff :
    isAtOrBelow path base = true ↔
      path = base ∨ ∃ rest, path.toList = base.toList ++ '/' :: rest := by
  rw [isAtOrBelow, Bool.or_eq_true, decide_eq_true_eq]
  refine or_congr_right ?_
  constructor
  · intro below
    split at below
    · rename_i next rest found
      rw [beq_iff_eq] at below
      exact ⟨rest, below ▸ dropPrefix?_eq_some_iff.1 found⟩
    · cases below
  · rintro ⟨rest, same⟩
    rw [dropPrefix?_eq_some_iff.2 same]
    rfl

/-- What is at or below a path is at or below what that is at or below. -/
theorem isAtOrBelow_trans (first : isAtOrBelow path base = true)
    (second : isAtOrBelow base other = true) : isAtOrBelow path other = true := by
  rw [isAtOrBelow_iff] at *
  rcases first with rfl | ⟨rest, same⟩
  · exact second
  · rcases second with rfl | ⟨between, sameBase⟩
    · exact .inr ⟨rest, same⟩
    · refine .inr ⟨between ++ '/' :: rest, ?_⟩
      rw [same, sameBase, List.append_assoc, List.cons_append]

/-- Of two paths that a path is at or below, one is at or below the other. -/
theorem isAtOrBelow_total (first : isAtOrBelow path base = true)
    (second : isAtOrBelow path other = true) :
    isAtOrBelow base other = true ∨ isAtOrBelow other base = true := by
  rcases isAtOrBelow_iff.1 first with rfl | ⟨rest, same⟩
  · exact .inl second
  · rcases isAtOrBelow_iff.1 second with rfl | ⟨otherRest, otherSame⟩
    · exact .inr first
    · simp only [isAtOrBelow_iff]
      rcases List.append_eq_append_iff.1 (same.symm.trans otherSame) with
        ⟨between, longer, tail⟩ | ⟨between, longer, tail⟩
      · cases between with
        | nil => exact .inl (.inl (String.toList_inj.1 (by simpa using longer.symm)))
        | cons c between =>
          cases tail
          exact .inr (.inr ⟨between, longer⟩)
      · cases between with
        | nil => exact .inl (.inl (String.toList_inj.1 (by simpa using longer)))
        | cons c between =>
          cases tail
          exact .inl (.inr ⟨between, longer⟩)

/-- The slashes at the end of a path are dropped once and for all. -/
theorem mountOf_mountOf (path : String) : mountOf (mountOf path) = mountOf path := by
  have again : ∀ text : List Char, trimEndBy (· == '/') (trimEndBy (· == '/') text) =
      trimEndBy (· == '/') text := fun text => List.rdropWhile_idempotent _ text
  by_cases nothing : (trimEndBy (· == '/') path.toList).isEmpty
  · have isDefault : mountOf path = defaultMcpPath := if_pos nothing
    rw [isDefault]
    decide
  · have trimmed : mountOf path = String.ofList (trimEndBy (· == '/') path.toList) :=
      if_neg nothing
    rw [trimmed, mountOf, String.toList_ofList, again]
    exact if_neg nothing

/-- A mount path that is a route of its own. -/
structure IsMountable (config : Config) : Prop where
  /-- It begins with a slash. -/
  slash : config.mountPath.toList.head? = some '/'
  /-- None of its characters has a meaning of its own. -/
  plain : config.mountPath.toList.any isRouteSpecial = false
  /-- It is neither above nor below the routes of the REST interface. -/
  apart : ∀ taken ∈ reservedPrefixes,
    isAtOrBelow config.mountPath taken = false ∧ isAtOrBelow taken config.mountPath = false

/-- A configuration is valid if it has no agents or a mountable path for them. -/
theorem validate_eq_ok_iff {config : Config} :
    config.validate = .ok () ↔ (config.enableMcp = true → config.IsMountable) := by
  cases enabled : config.enableMcp with
  | false => simp [validate, enabled]
  | true =>
    simp only [validate, enabled, Bool.not_true, Bool.false_eq_true, if_false, forall_const]
    constructor
    · intro valid
      split at valid
      · cases valid
      · rename_i slash
        split at valid
        · cases valid
        · rename_i plain
          split at valid
          · cases valid
          · rename_i noClash
            refine ⟨not_not.1 slash, by simpa using plain, fun taken reserved => ?_⟩
            simpa using List.find?_eq_none.1 noClash taken reserved
    · rintro ⟨slash, plain, apart⟩
      have noClash : (reservedPrefixes.find? fun taken =>
          isAtOrBelow config.mountPath taken || isAtOrBelow taken config.mountPath) = none := by
        refine List.find?_eq_none.2 fun taken reserved => ?_
        simpa using apart taken reserved
      rw [if_neg (not_not.2 slash), plain, if_neg Bool.false_ne_true, noClash]

/-- A configuration is refused with an error about the configuration and no other. -/
theorem exists_reason_of_validate {config : Config} {error : Error}
    (refused : config.validate = .error error) : ∃ reason, error = .config reason := by
  simp only [validate] at refused
  split at refused
  · cases refused
  · split at refused
    · cases refused
      exact ⟨_, rfl⟩
    · split at refused
      · cases refused
        exact ⟨_, rfl⟩
      · split at refused
        · cases refused
          exact ⟨_, rfl⟩
        · cases refused

/-- A path at or below a mountable one is at or below no route of the REST interface. -/
theorem IsMountable.elsewhere {config : Config} (mountable : config.IsMountable)
    (mounted : isAtOrBelow path config.mountPath = true) {taken : String}
    (reserved : taken ∈ reservedPrefixes) : isAtOrBelow path taken = false := by
  cases below : isAtOrBelow path taken with
  | false => rfl
  | true =>
    obtain ⟨notBelow, notAbove⟩ := mountable.apart taken reserved
    rcases isAtOrBelow_total mounted below with here | there
    · exact here.symm.trans notBelow
    · exact there.symm.trans notAbove

end Config

/-! ## Routes -/

namespace Server

variable {path base : String}

/-- A path continues another if something follows it there. -/
theorem accepts_below_iff :
    Route.accepts path (.below base) = true ↔
      ∃ next rest, path.toList = base.toList ++ next :: rest := by
  rw [Route.accepts]
  constructor
  · intro accepted
    split at accepted
    · rename_i next rest found
      exact ⟨next, rest, dropPrefix?_eq_some_iff.1 found⟩
    · cases accepted
  · rintro ⟨next, rest, same⟩
    rw [dropPrefix?_eq_some_iff.2 same]

/-- The routes of a path, of that with a slash, and of all that continues the latter
are those at or below the path. -/
theorem any_accepts_iff :
    [Route.exact base, .exact (base ++ "/"), .below (base ++ "/")].any (Route.accepts path) = true ↔
      Config.isAtOrBelow path base = true := by
  have slash : (base ++ "/").toList = base.toList ++ ['/'] := String.toList_append
  simp only [List.any_cons, List.any_nil, Bool.or_false, Bool.or_eq_true, accepts_below_iff,
    Config.isAtOrBelow_iff, slash]
  simp only [Route.accepts, decide_eq_true_eq]
  refine or_congr_right ?_
  constructor
  · rintro (rfl | ⟨next, rest, same⟩)
    · exact ⟨[], slash⟩
    · exact ⟨next :: rest, by rw [same, List.append_assoc]; rfl⟩
  · rintro ⟨rest, same⟩
    cases rest with
    | nil => exact .inl (String.toList_inj.1 (same.trans slash.symm))
    | cons next rest => exact .inr ⟨next, rest, by rw [same, List.append_assoc]; rfl⟩

/-- What is at or below a mountable path is no path of the documentation. -/
theorem not_documentation {config : Config} (mountable : config.IsMountable)
    (mounted : Config.isAtOrBelow path config.mountPath = true) :
    path ≠ documentPath ∧ pageRoutes.any (Route.accepts path) = false := by
  have elsewhere : Config.isAtOrBelow path "/api" = false :=
    mountable.elsewhere mounted (by decide)
  constructor
  · rintro rfl
    cases elsewhere
  · cases isPage : pageRoutes.any (Route.accepts path) with
    | false => rfl
    | true =>
      have below : Config.isAtOrBelow path "/api" = true :=
        Config.isAtOrBelow_trans (any_accepts_iff.1 isPage) (by decide)
      exact below.symm.trans elsewhere

namespace Application

variable {config : Config} {service : Rest.Handler} {application : Application}

/-- A service that answers everything alike. -/
def acknowledge : Rest.Handler := fun _ store => (.empty 204 [], store)

/-- What has been built with a service is the valid configuration with that service, if
it asks for agents. -/
theorem eq_of_build (built : build config (some service) = .ok application) :
    config.validate = .ok () ∧
      application = ⟨config, if config.enableMcp then some service else none⟩ := by
  obtain ⟨_, checked, made⟩ := bind_eq_ok_iff.1 built
  cases made
  refine ⟨?_, rfl⟩
  rw [check] at checked
  split at checked
  · cases checked
  · assumption

/-- An application that can be built with a service can be built with any. -/
theorem build_other (built : build config (some service) = .ok application)
    (other : Rest.Handler) :
    build config (some other) = .ok ⟨config, if config.enableMcp then some other else none⟩ := by
  obtain ⟨passed, checked, _⟩ := bind_eq_ok_iff.1 built
  exact bind_eq_ok_iff.2 ⟨passed, checked, rfl⟩

/-- The service is where its routes lead, and nothing else is there. -/
theorem destination_of_build (built : build config (some service) = .ok application)
    (path : String) :
    application.destination path =
      if config.enableMcp = true ∧ Config.isAtOrBelow path config.mountPath = true then
        .agents service
      else if path = documentPath then .document
      else if pageRoutes.any (Route.accepts path) then .pages
      else .rest := by
  obtain ⟨valid, rfl⟩ := eq_of_build built
  by_cases mounted : config.enableMcp = true ∧ Config.isAtOrBelow path config.mountPath = true
  · obtain ⟨enabled, below⟩ := mounted
    have mountable := Config.validate_eq_ok_iff.1 valid enabled
    obtain ⟨notDocument, notPage⟩ := not_documentation mountable below
    have routed : (mountRoutes config).any (Route.accepts path) = true := any_accepts_iff.2 below
    simp [destination, notDocument, notPage, enabled, below, routed]
  · rw [if_neg mounted, destination]
    cases enabled : config.enableMcp with
    | false => simp
    | true =>
      have notRouted : (mountRoutes config).any (Route.accepts path) = false := by
        cases routed : (mountRoutes config).any (Route.accepts path) with
        | false => rfl
        | true => exact absurd ⟨enabled, any_accepts_iff.1 routed⟩ mounted
      simp [notRouted]

/-- The service is reached by its routes and by nothing else. -/
theorem leads_to_agents_iff (built : build config (some service) = .ok application) :
    (∃ agents, application.destination path = .agents agents) ↔
      config.enableMcp = true ∧ Config.isAtOrBelow path config.mountPath = true := by
  rw [destination_of_build built]
  constructor
  · rintro ⟨agents, leads⟩
    split at leads
    · assumption
    · split at leads
      · cases leads
      · split at leads <;> cases leads
  · intro mounted
    exact ⟨service, if_pos mounted⟩

end Application

end Server

end ContextDb
