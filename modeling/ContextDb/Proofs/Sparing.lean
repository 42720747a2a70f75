import ContextDb.Proofs.Guarding

/-!
# The REST interface beside the service

An application with a service for agents answers everything that the gate does not
protect as it would without the service. The paths of the REST interface are among that:
a mount path that hides one of them, or lies among them, is not accepted.
-/

namespace ContextDb.Server.Application

open Http

variable {config : Config} {service : Rest.Handler} {application : Application}
  {context : Rest.Context} {request : Request} {store : Store}

/-- A valid configuration can be built without a service. -/
theorem build_none (built : build config (some service) = .ok application) :
    build config none = .ok ⟨config, none⟩ := by
  obtain ⟨valid, _⟩ := eq_of_build built
  rw [build, check, valid]
  cases config.enableMcp <;> rfl

/-- The gate protects what is at or below the mount path. -/
theorem protects_of_build (built : build config (some service) = .ok application)
    (path : String) :
    application.gate.protects path = Config.isAtOrBelow path config.mountPath := by
  rw [(eq_of_build built).2, gate, Gate.protects, mountPath_ofConfig]

/-- What is at or below a reserved path is neither protected nor the service's. -/
theorem apart_of_reserved (built : build config (some service) = .ok application)
    (enabled : config.enableMcp = true) {taken path : String}
    (reserved : taken ∈ Config.reservedPrefixes)
    (below : Config.isAtOrBelow path taken = true) :
    application.gate.protects path = false ∧
      ∀ agents, application.destination path ≠ .agents agents := by
  have mountable := Config.validate_eq_ok_iff.1 (eq_of_build built).1 enabled
  have notMounted : Config.isAtOrBelow path config.mountPath = false := by
    cases mounted : Config.isAtOrBelow path config.mountPath with
    | false => rfl
    | true => exact below.symm.trans (mountable.elsewhere mounted reserved)
  refine ⟨(protects_of_build built path).trans notMounted, fun agents leads => ?_⟩
  have mounted := ((leads_to_agents_iff built).1 ⟨agents, leads⟩).2
  exact Bool.false_ne_true (notMounted.symm.trans mounted)

/-- The gate lets everything pass that it does not protect. -/
theorem check_of_not_protects {gate : Gate} {path : String}
    (unprotected : gate.protects path = false) (headers : Headers) :
    gate.check path headers = .ok () := by
  rw [Gate.check, unprotected]
  split <;> rfl

/-- A request that the gate does not protect is answered as if there were no service. -/
theorem guarded_of_not_protects (built : build config (some service) = .ok application)
    (unprotected : application.gate.protects request.path = false) :
    application.guarded context request store =
      (⟨config, none⟩ : Application).guarded context request store := by
  have sameGate : (⟨config, none⟩ : Application).gate = application.gate := by
    rw [(eq_of_build built).2]
    rfl
  have elsewhere : ¬ (config.enableMcp = true ∧
      Config.isAtOrBelow request.path config.mountPath = true) := by
    rintro ⟨_, mounted⟩
    rw [protects_of_build built, mounted] at unprotected
    cases unprotected
  rw [guarded, guarded, sameGate, check_of_not_protects unprotected]
  exact route_of_elsewhere built elsewhere

/-- Serving agents takes nothing from the REST interface: what is at or below its paths is
neither protected by the gate nor routed to the service, and every request that the gate
does not protect is answered, with whichever credentials, as by the application of the
same configuration without the service. -/
theorem rest_is_spared (built : build config (some service) = .ok application)
    (enabled : config.enableMcp = true) :
    (∀ taken ∈ ["/health", "/api"], ∀ path,
      (path = taken ∨ (taken ++ "/").toList <+: path.toList) →
        application.gate.protects path = false ∧
          ∀ agents, application.destination path ≠ .agents agents) ∧
    ∃ bare, build config none = .ok bare ∧
      ∀ request, request.method ≠ "OPTIONS" →
        application.gate.protects request.path = false →
        ∀ context elapsed otherElapsed store,
          let answer := application.respond context elapsed request store
          let expected := bare.respond context otherElapsed request store
          answer.1.status = expected.1.status ∧ answer.1.body = expected.1.body ∧
            answer.2 = expected.2 := by
  refine ⟨fun taken reserved path below => ?_, _, build_none built, ?_⟩
  · have atOrBelow : Config.isAtOrBelow path taken = true := by
      refine Config.isAtOrBelow_iff.2 (below.imp_right ?_)
      rintro ⟨rest, continued⟩
      exact ⟨rest, by rw [← continued, String.toList_append, List.append_assoc]; rfl⟩
    exact apart_of_reserved built enabled reserved atOrBelow
  · intro request notOptions unprotected context elapsed otherElapsed store
    simp only [respond_eq_finish notOptions, status_finish,
      guarded_of_not_protects built unprotected]
    exact ⟨trivial, by rw [body_finish, body_finish], rfl⟩

/-- A configuration with a secret whose mount path begins like those of the REST
interface. -/
def neighbour : Config := { keyed with mcpPath := "/apix//" }

/-- The REST interface is spared there, and so is what only begins like the mount path. -/
theorem neighbour_spares_rest :
    let application : Application := ⟨neighbour, some acknowledge⟩
    let request : Request := ⟨"GET", "/apixy", none, [], ByteArray.empty⟩
    let context : Rest.Context := ⟨neighbour, ⟨1, ⟨0⟩⟩, 0⟩
    build neighbour (some acknowledge) = .ok application ∧ neighbour.enableMcp = true ∧
    application.gate.protects "/api/v1/fs/ls" = false ∧
    (application.respond context "0.1" request (Store.empty 0)).1.status =
      ((⟨neighbour, none⟩ : Application).respond context "0.2" request
        (Store.empty 0)).1.status := by
  intro application request context
  have built : build neighbour (some acknowledge) = .ok application := rfl
  obtain ⟨apart, bare, builtBare, same⟩ := rest_is_spared built rfl
  cases (build_none built).symm.trans builtBare
  have inApi : ("/api" ++ "/").toList <+: "/api/v1/fs/ls".toList := by decide
  exact ⟨built, rfl, (apart "/api" (by decide) _ (.inr inApi)).1,
    (same request (by decide) (by decide +kernel) context _ _ _).1⟩

end ContextDb.Server.Application
