import ContextDb.Proofs.Mounting
import ContextDb.Proofs.Routing

/-!
# Registering routes

The routes for agents never meet a route of the REST interface if the configuration is
valid, and they can be registered exactly if no segment of the mount path begins with a
colon. A valid configuration may have such a segment: then there is no application.
-/

namespace ContextDb

open Text

namespace Rest

/-- Every endpoint is under a reserved prefix by its first segment. -/
theorem Endpoint.first_segment (endpoint : Endpoint) :
    ∃ name ∈ ["health", "api"], endpoint.segments.head? = some (.literal name) := by
  have each : ∀ endpoint : Endpoint, ∃ name ∈ ["health", "api"],
      endpoint.segments.head? = some (.literal name) := by decide +kernel
  exact each endpoint

/-- A path whose parts begin with a name is at or below the path with that name. -/
theorem isAtOrBelow_of_pathParts? {path name : String} {parts : List String}
    (areParts : pathParts? path = some (name :: parts)) :
    Config.isAtOrBelow path ("/" ++ name) = true := by
  rw [pathParts?] at areParts
  split at areParts
  · rename_i rest shape
    obtain ⟨first, others, cut, isName, _⟩ := List.map_eq_cons_iff.1 (Option.some.inj areParts)
    have slashName : ("/" ++ name).toList = '/' :: first := by
      simp [← isName]
    rw [Config.isAtOrBelow_iff, ← String.toList_inj, shape, slashName]
    rcases eq_or_of_pieces_eq_cons cut with rfl | ⟨behind, rfl⟩
    · exact .inl rfl
    · exact .inr ⟨behind, rfl⟩
  · cases areParts

/-- Paths that lead to endpoints are at or below a reserved prefix. -/
theorem exists_reserved_of_mem_endpointsAt {path : String} {endpoint : Endpoint}
    {captured : List String} (leads : (endpoint, captured) ∈ endpointsAt path) :
    ∃ taken ∈ Config.reservedPrefixes, Config.isAtOrBelow path taken = true := by
  obtain ⟨parts, areParts, matching⟩ := mem_endpointsAt_iff.1 leads
  obtain ⟨name, isFirst, first⟩ := endpoint.first_segment
  obtain ⟨segments, shape⟩ : ∃ segments, endpoint.segments = .literal name :: segments :=
    List.head?_eq_some_iff.1 first
  rw [shape] at matching
  obtain ⟨part, others, _, rfl, accepted, _⟩ := exists_of_captures?_cons matching
  have same : name = part := of_decide_eq_true accepted
  refine ⟨"/" ++ name, ?_, same ▸ isAtOrBelow_of_pathParts? areParts⟩
  have reserved : ∀ name ∈ ["health", "api"], "/" ++ name ∈ Config.reservedPrefixes := by decide
  exact reserved name isFirst

end Rest

namespace Server

variable {config : Config} {path : String}

/-- What is at or below a mountable path is no path of the REST interface or its
documentation. -/
theorem isOwnPath_eq_false (mountable : config.IsMountable)
    (mounted : Config.isAtOrBelow path config.mountPath = true) : isOwnPath path = false := by
  have nothing : Rest.endpointsAt path = [] := by
    refine List.eq_nil_iff_forall_not_mem.2 fun ⟨endpoint, captured⟩ leads => ?_
    obtain ⟨taken, reserved, below⟩ := Rest.exists_reserved_of_mem_endpointsAt leads
    exact Bool.false_ne_true ((mountable.elsewhere mounted reserved).symm.trans below)
  obtain ⟨notDocument, notPage⟩ := not_documentation mountable mounted
  simp [isOwnPath, nothing, notDocument, notPage]

/-- Some segment of a path begins with a colon. -/
def HasColonSegment (path : String) : Prop :=
  ∃ segment ∈ pieces '/' path.toList, segment.head? = some ':'

instance (path : String) : Decidable (HasColonSegment path) :=
  inferInstanceAs (Decidable (∃ segment ∈ pieces '/' path.toList, segment.head? = some ':'))

/-- A slash at the end is no segment that begins with a colon. -/
theorem hasColonSegment_append_slash : HasColonSegment (path ++ "/") ↔ HasColonSegment path := by
  have cut : pieces '/' (path ++ "/").toList = pieces '/' path.toList ++ [[]] := by
    rw [String.toList_append]
    exact pieces_append_separator '/' path.toList []
  rw [HasColonSegment, cut]
  constructor
  · rintro ⟨segment, member, colon⟩
    rcases List.mem_append.1 member with inPath | last
    · exact ⟨segment, inPath, colon⟩
    · cases List.mem_singleton.1 last
      cases colon
  · rintro ⟨segment, member, colon⟩
    exact ⟨segment, List.mem_append_left _ member, colon⟩

/-- A path with a slash in front and no character of special meaning can be registered
exactly if no segment begins with a colon. -/
theorem isRoutable_iff (slash : path.toList.head? = some '/')
    (plain : path.toList.any Config.isRouteSpecial = false) :
    isRoutable path = true ↔ ¬ HasColonSegment path := by
  have notSpecial : ∀ c ∈ path.toList, Config.isRouteSpecial c = false := by
    simpa using plain
  have noBraces : (path.toList.any fun c => c = '\x7b' || c = '\x7d') = false := by
    refine List.any_eq_false.2 fun c member brace => ?_
    have special := notSpecial c member
    rcases (by simpa using brace : c = '\x7b' ∨ c = '\x7d') with rfl | rfl <;> cases special
  have noStar : ∀ segment ∈ pieces '/' path.toList, segment.head? ≠ some '*' := by
    intro segment member star
    cases notSpecial '*' (subset_of_mem_pieces member (List.mem_of_head? star))
  simp only [isRoutable, slash, noBraces, decide_true, Bool.true_and, Bool.not_false, Bool.and_true,
    Bool.not_eq_true', List.any_eq_false, looksLikeCapture, Bool.or_eq_true, decide_eq_true_eq,
    HasColonSegment, not_exists, not_and, not_or]
  exact forall₂_congr fun segment member => and_iff_left (noStar segment member)

/-- Mountable paths can be mounted exactly if none of their segments begins with a
colon. -/
theorem canMount_iff (mountable : config.IsMountable) :
    canMount config = true ↔ ¬ HasColonSegment config.mountPath := by
  obtain ⟨_, shape⟩ := List.head?_eq_some_iff.1 mountable.slash
  have slashBelow : Config.isAtOrBelow (config.mountPath ++ "/") config.mountPath = true :=
    Config.isAtOrBelow_iff.2 (.inr ⟨[], String.toList_append⟩)
  have here := isRoutable_iff mountable.slash mountable.plain
  have behind : isRoutable (config.mountPath ++ "/") = true ↔
      ¬ HasColonSegment config.mountPath := by
    rw [isRoutable_iff, hasColonSegment_append_slash]
    · rw [String.toList_append, shape]
      rfl
    · rw [String.toList_append, List.any_append, mountable.plain]
      decide
  have own := isOwnPath_eq_false mountable (Config.isAtOrBelow_iff.2 (.inl rfl))
  have ownBehind := isOwnPath_eq_false mountable slashBelow
  simp [canMount, mountRoutes, Route.base, own, ownBehind, here, behind]

namespace Application

/-- A configuration is checked for its validity, and then whether its routes can be
registered if there is a service for them. -/
theorem check_eq_error_iff {hasService : Bool} {failure : BuildFailure} :
    check config hasService = .error failure ↔
      (∃ error, config.validate = .error error ∧ failure = .config error) ∨
      (config.validate = .ok () ∧ config.enableMcp = true ∧ hasService = true ∧
        canMount config = false ∧ failure = .route config.mountPath) := by
  rw [check]
  cases config.validate with
  | error error =>
    constructor
    · rintro ⟨⟩
      exact .inl ⟨error, rfl, rfl⟩
    · rintro (⟨_, ⟨⟩, rfl⟩ | ⟨⟨⟩, _⟩)
      rfl
  | ok passed =>
    simp only [reduceCtorEq, false_and, exists_false, false_or, true_and]
    split
    · rename_i refused
      simp only [Bool.and_eq_true, Bool.not_eq_true'] at refused
      obtain ⟨⟨enabled, served⟩, unmountable⟩ := refused
      simp [enabled, served, unmountable, eq_comm]
    · rename_i accepted
      simp only [Bool.and_eq_true, Bool.not_eq_true', not_and] at accepted
      simp only [reduceCtorEq, false_iff, not_and]
      exact fun enabled served unmountable => absurd unmountable (accepted ⟨enabled, served⟩)

/-- Building an application fails for a configuration that is not valid, with the error
that says why, and for a valid one with a service and a segment of its mount path that
begins with a colon. It fails for nothing else: the routes for agents take no path of the
REST interface or its documentation. -/
theorem build_fails_iff (config : Config) (service : Option Rest.Handler) :
    (∀ failure, build config service = .error failure ↔
      (∃ reason, config.validate = .error (.config reason) ∧
        failure = .config (.config reason)) ∨
      (config.validate = .ok () ∧ config.enableMcp = true ∧ service.isSome = true ∧
        HasColonSegment config.mountPath ∧ failure = .route config.mountPath)) ∧
    (config.validate = .ok () → config.enableMcp = true →
      ∀ route ∈ mountRoutes config, ∀ path, route.accepts path = true →
        isOwnPath path = false) := by
  constructor
  · intro failure
    have checked : build config service = .error failure ↔
        check config service.isSome = .error failure := by
      rw [build]
      cases check config service.isSome <;> simp [bind, Except.bind, pure, Except.pure]
    rw [checked, check_eq_error_iff]
    refine or_congr ?_ (and_congr_right fun valid => and_congr_right fun enabled => ?_)
    · constructor
      · rintro ⟨error, refused, rfl⟩
        obtain ⟨reason, rfl⟩ := Config.exists_reason_of_validate refused
        exact ⟨reason, refused, rfl⟩
      · rintro ⟨reason, refused, rfl⟩
        exact ⟨_, refused, rfl⟩
    · have mountable := Config.validate_eq_ok_iff.1 valid enabled
      rw [← Bool.not_eq_true, canMount_iff mountable, not_not]
  · intro valid enabled route member path accepted
    have mounted : Config.isAtOrBelow path config.mountPath = true :=
      any_accepts_iff.1 (List.any_eq_true.2 ⟨route, member, accepted⟩)
    exact isOwnPath_eq_false (Config.validate_eq_ok_iff.1 valid enabled) mounted

/-- The default mount path can be registered, and no endpoint is below it. -/
theorem default_mount_is_built :
    Config.default.validate = .ok () ∧
    (∀ failure, build Config.default (some acknowledge) ≠ .error failure) ∧
    isOwnPath "/mcp/message" = false := by
  obtain ⟨fails, apart⟩ := build_fails_iff Config.default (some acknowledge)
  have valid : Config.default.validate = .ok () := rfl
  refine ⟨valid, fun failure failed => ?_,
    apart valid rfl (.below "/mcp/") (by decide +kernel) "/mcp/message" (by decide +kernel)⟩
  rcases (fails failure).1 failed with ⟨_, refused, _⟩ | ⟨_, _, _, colon, _⟩
  · cases valid.symm.trans refused
  · exact absurd colon (by decide +kernel)

/-- The path of a single parameter in the old form is valid, and its routes cannot be
registered. -/
theorem valid_capture_is_not_built :
    ({ Config.default with mcpPath := "/:x" } : Config).validate = .ok () ∧
    build { Config.default with mcpPath := "/:x" } (some acknowledge) = .error (.route "/:x") := by
  constructor <;> rfl

end Application

end Server

end ContextDb
