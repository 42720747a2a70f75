import ContextDb.Proofs.Conveying
import ContextDb.Proofs.Credentials
import ContextDb.Proofs.Mounting

/-!
# The guard of the mount path

The gate protects the paths that the routes of the service for agents take. So the
service is asked exactly if it is there, the path leads to it and the secret, if there
is one, is presented. The gate knows the secret by its digest: only where the two are
compared does it matter that no other credential has the same digest.
-/

namespace ContextDb.Server.Application

open Http Text

variable {path : String} {config : Config} {service : Rest.Handler} {application : Application}

/-! ## The gate of an application -/

/-- The gate asks for the secret of the configuration, if that asks for agents. -/
theorem secret_ofConfig (config : Config) :
    (Gate.ofConfig config).secret = if config.enableMcp then config.secret else none := by
  rw [Gate.ofConfig, Gate.make]
  cases config.enableMcp with
  | false => simp
  | true =>
    simp only [Config.secret, Option.filter_filter, Bool.true_and, Bool.and_self, if_true]

/-- The gate has the mount path of the configuration. -/
theorem mountPath_ofConfig (config : Config) :
    (Gate.ofConfig config).mountPath = config.mountPath := by
  simp only [Gate.ofConfig, Gate.make, Config.mountPath, Config.mountOf_mountOf]

/-- Whether a configuration lets agents with some headers pass: all if there is no
secret, and else those that present it. -/
def Admits (config : Config) (headers : Headers) : Prop :=
  ∀ key, config.secret = some key → Presents headers (bytesOf key)

/-- Whether agents with some headers pass by the digests: all if there is no secret, and
else those that present a credential with the digest of the secret. -/
def Passes (config : Config) (headers : Headers) : Prop :=
  ∀ key, config.secret = some key →
    ∃ credential, Presents headers credential ∧
      Digest.digest credential = Digest.digest (bytesOf key)

/-- No other credential than the secret is presented with the digest of the secret. -/
def NoCollision (config : Config) (headers : Headers) : Prop :=
  ∀ key credential, config.secret = some key → Presents headers credential →
    Digest.digest credential = Digest.digest (bytesOf key) → credential = bytesOf key

/-- Those that present the secret pass. -/
theorem passes_of_admits {headers : Headers} (admits : Admits config headers) :
    Passes config headers :=
  fun key isSecret => ⟨bytesOf key, admits key isSecret, rfl⟩

/-- Without a collision, nobody else passes. -/
theorem passes_iff_admits {headers : Headers} (noCollision : NoCollision config headers) :
    Passes config headers ↔ Admits config headers := by
  refine ⟨fun passes key isSecret => ?_, passes_of_admits⟩
  obtain ⟨credential, presents, sameDigest⟩ := passes key isSecret
  exact noCollision key credential isSecret presents sameDigest ▸ presents

variable {request : Request} {store : Store} {context : Rest.Context}

/-- The gate compares the digest of what is presented with that of the secret. -/
theorem any_sameSecret_iff {headers : Headers} {key : List UInt8} :
    (Gate.presented? headers).any (Gate.sameSecret · key) = true ↔
      ∃ credential, Presents headers credential ∧
        Digest.digest credential = Digest.digest key := by
  simp only [Option.any_eq_true, presents_iff, Gate.sameSecret_iff]

/-- The gate lets those pass who go elsewhere or present what it asks for. -/
theorem check_ofConfig_eq_ok_iff {headers : Headers} :
    (Gate.ofConfig config).check path headers = .ok () ↔
      (config.enableMcp = true → Config.isAtOrBelow path config.mountPath = true →
        Passes config headers) := by
  rw [Gate.check, secret_ofConfig]
  cases config.enableMcp with
  | false => simp
  | true =>
    cases isSecret : config.secret with
    | none => simp [Passes, isSecret]
    | some key =>
      have passes_iff : Passes config headers ↔
          (Gate.presented? headers).any (Gate.sameSecret · (bytesOf key)) = true := by
        rw [any_sameSecret_iff]
        simp [Passes, isSecret]
      rw [passes_iff]
      simp only [if_true, Gate.protects, mountPath_ofConfig]
      cases Config.isAtOrBelow path config.mountPath <;>
        cases (Gate.presented? headers).any (Gate.sameSecret · (bytesOf key)) <;> simp

/-- Whom the gate does not let pass it tells why. -/
theorem check_eq_ok_or {gate : Gate} {headers : Headers} :
    gate.check path headers = .ok () ∨
      gate.check path headers = .error (.unauthenticated "Invalid API Key") := by
  rw [Gate.check]
  cases gate.secret with
  | none => exact .inl rfl
  | some secret =>
    simp only
    split
    · exact .inl rfl
    · exact .inr rfl

/-- An answer as it leaves an application. -/
def finish (application : Application) (elapsed : String) (request : Request)
    (answer : Response × Store) : Response × Store :=
  let origins := Origins.ofConfig application.config
  let stamped := stamp elapsed answer.1
  let headers := stamped.headers ++ origins.headers request.headers
  (Rest.Response.forMethod request.method { stamped with headers }, answer.2)

theorem respond_eq_finish (notOptions : request.method ≠ "OPTIONS") (context : Rest.Context)
    (elapsed : String) (store : Store) :
    application.respond context elapsed request store =
      application.finish elapsed request (application.guarded context request store) := by
  rw [respond, if_neg notOptions]
  rfl

/-! ## Who reaches the service -/

variable {elapsed : String}

/-- A request that is let through to the service is answered by it. -/
theorem guarded_of_passes (built : build config (some service) = .ok application)
    (enabled : config.enableMcp = true)
    (below : Config.isAtOrBelow request.path config.mountPath = true)
    (passes : Passes config request.headers) :
    application.guarded context request store = service request store := by
  have leads := destination_of_build built request.path
  have isConfig : application.config = config := by rw [(eq_of_build built).2]
  rw [guarded, gate, isConfig, check_ofConfig_eq_ok_iff.2 fun _ _ => passes]
  simp only [route, leads, enabled, below, and_self, if_true]

/-- A request to the service that is not let through is turned away. -/
theorem guarded_of_refused (built : build config (some service) = .ok application)
    (enabled : config.enableMcp = true)
    (below : Config.isAtOrBelow request.path config.mountPath = true)
    (refused : ¬ Passes config request.headers) :
    application.guarded context request store =
      (.ofError (.unauthenticated "Invalid API Key"), store) := by
  have isConfig : application.config = config := by rw [(eq_of_build built).2]
  rw [guarded, gate, isConfig]
  rcases check_eq_ok_or with passes | turnedAway
  · exact absurd (check_ofConfig_eq_ok_iff.1 passes enabled below) refused
  · rw [turnedAway]

/-- A request that leads elsewhere goes where it would go if there were no service. -/
theorem route_of_elsewhere (built : build config (some service) = .ok application)
    (elsewhere : ¬ (config.enableMcp = true ∧
      Config.isAtOrBelow request.path config.mountPath = true)) :
    application.route context request store =
      (⟨config, none⟩ : Application).route context request store := by
  have leads : (⟨config, none⟩ : Application).destination request.path =
      application.destination request.path := by
    rw [destination_of_build built, if_neg elsewhere]
    rfl
  simp only [route, leads]

/-- A request that leads elsewhere is answered as if there were no service. -/
theorem guarded_of_elsewhere (built : build config (some service) = .ok application)
    (elsewhere : ¬ (config.enableMcp = true ∧
      Config.isAtOrBelow request.path config.mountPath = true)) :
    application.guarded context request store =
      (⟨config, none⟩ : Application).route context request store := by
  have isConfig : application.config = config := by rw [(eq_of_build built).2]
  have passes : (Gate.ofConfig config).check request.path request.headers = .ok () :=
    check_ofConfig_eq_ok_iff.2 fun enabled below => absurd ⟨enabled, below⟩ elsewhere
  rw [guarded, gate, isConfig, passes]
  exact route_of_elsewhere built elsewhere

/-- Whichever service is built in, the answer to a request is what that service
answers. -/
def Invokes (config : Config) (context : Rest.Context) (elapsed : String) (request : Request)
    (store : Store) : Prop :=
  ∀ service application, build config (some service) = .ok application →
    application.respond context elapsed request store =
      application.finish elapsed request (service request store)

/-- Whichever service is built in, the answer to a request is the same. -/
def Spares (config : Config) (context : Rest.Context) (elapsed : String) (request : Request)
    (store : Store) : Prop :=
  ∀ first second firstApplication secondApplication,
    build config (some first) = .ok firstApplication →
    build config (some second) = .ok secondApplication →
      firstApplication.respond context elapsed request store =
        secondApplication.respond context elapsed request store

@[simp] theorem status_stamp (response : Response) :
    (stamp elapsed response).status = response.status := by
  rw [stamp]
  split <;> rfl

@[simp] theorem body_stamp (response : Response) :
    (stamp elapsed response).body = response.body := by
  rw [stamp]
  split <;> rfl

@[simp] theorem status_finish (answer : Response × Store) :
    (application.finish elapsed request answer).1.status = answer.1.status := by
  rw [finish, Rest.Response.forMethod]
  split <;> exact status_stamp answer.1

/-- What an answer says arrives, unless the headers alone are asked for. -/
theorem body_finish (answer : Response × Store) :
    (application.finish elapsed request answer).1.body =
      if request.method = "HEAD" then ByteArray.empty else answer.1.body := by
  rw [finish, Rest.Response.forMethod]
  split
  · rfl
  · exact body_stamp answer.1

/-- Where an application can be built, no service is both invoked and spared. -/
theorem not_invokes_and_spares (built : build config (some service) = .ok application)
    (invokes : Invokes config context elapsed request store)
    (spares : Spares config context elapsed request store) : False := by
  have answer (status : Nat) := build_other built fun _ store => (.empty status [], store)
  have same := spares _ _ _ _ (answer 200) (answer 404)
  rw [invokes _ _ (answer 200), invokes _ _ (answer 404)] at same
  have statuses := congrArg (·.1.status) same
  simp [Response.empty] at statuses

/-- A request invokes the service if its routes take it and the gate lets it pass. -/
theorem invokes_of_passes (notOptions : request.method ≠ "OPTIONS")
    (enabled : config.enableMcp = true)
    (below : Config.isAtOrBelow request.path config.mountPath = true)
    (passes : Passes config request.headers) :
    Invokes config context elapsed request store := by
  intro service application built
  rw [respond_eq_finish notOptions, guarded_of_passes built enabled below passes]

/-- All other requests spare the service. -/
theorem spares_of_not_passes (notOptions : request.method ≠ "OPTIONS")
    (stopped : ¬ (config.enableMcp = true ∧
      Config.isAtOrBelow request.path config.mountPath = true ∧ Passes config request.headers)) :
    Spares config context elapsed request store := by
  intro first second firstApplication secondApplication builtFirst builtSecond
  have sameFinish : ∀ answer, firstApplication.finish elapsed request answer =
      secondApplication.finish elapsed request answer := by
    rw [(eq_of_build builtFirst).2, (eq_of_build builtSecond).2]
    exact fun _ => rfl
  rw [respond_eq_finish notOptions, respond_eq_finish notOptions, sameFinish]
  by_cases routed : config.enableMcp = true ∧
      Config.isAtOrBelow request.path config.mountPath = true
  · obtain ⟨enabled, below⟩ := routed
    have refused : ¬ Passes config request.headers :=
      fun passes => stopped ⟨enabled, below, passes⟩
    rw [guarded_of_refused builtFirst enabled below refused,
      guarded_of_refused builtSecond enabled below refused]
  · rw [guarded_of_elsewhere builtFirst routed, guarded_of_elsewhere builtSecond routed]

/-- Exactly the requests that are routed to the service and pass invoke it. -/
theorem invokes_iff (built : build config (some service) = .ok application)
    (notOptions : request.method ≠ "OPTIONS") :
    Invokes config context elapsed request store ↔
      config.enableMcp = true ∧ Config.isAtOrBelow request.path config.mountPath = true ∧
        Passes config request.headers := by
  constructor
  · intro invokes
    by_contra stopped
    exact not_invokes_and_spares built invokes (spares_of_not_passes notOptions stopped)
  · rintro ⟨enabled, below, passes⟩
    exact invokes_of_passes notOptions enabled below passes

/-- What does not invoke the service spares it. -/
theorem spares_iff_not_invokes (built : build config (some service) = .ok application)
    (notOptions : request.method ≠ "OPTIONS") :
    Spares config context elapsed request store ↔
      ¬ Invokes config context elapsed request store := by
  constructor
  · exact fun spares invokes => not_invokes_and_spares built invokes spares
  · intro notInvokes
    rw [invokes_iff built notOptions] at notInvokes
    exact spares_of_not_passes notOptions notInvokes

/-! ## Who is turned away -/

/-- A request is turned away: it is told that it is not authenticated, and the store is left
as it is. Where the headers alone are asked for, the answer has no body. -/
structure IsTurnedAway (request : Request) (store : Store) (answer : Response × Store) : Prop where
  status : answer.1.status = 401
  told : request.method ≠ "HEAD" →
    Json.Reports answer.1.body "UNAUTHENTICATED" "Invalid API Key"
  bare : request.method = "HEAD" → answer.1.body = ByteArray.empty
  unchanged : answer.2 = store

/-- The answer of the gate turns a request away. -/
theorem isTurnedAway_finish (request : Request) (store : Store) :
    IsTurnedAway request store
      (application.finish elapsed request
        (.ofError (.unauthenticated "Invalid API Key"), store)) where
  status := status_finish _
  told notHead := by
    rw [body_finish, if_neg notHead]
    exact Json.reports_ofError (.unauthenticated "Invalid API Key")
  bare isHead := by rw [body_finish, if_pos isHead]
  unchanged := rfl

/-- A request to the service that does not pass is turned away. -/
theorem respond_of_refused (built : build config (some service) = .ok application)
    (notOptions : request.method ≠ "OPTIONS") (enabled : config.enableMcp = true)
    (below : Config.isAtOrBelow request.path config.mountPath = true)
    (refused : ¬ Passes config request.headers) :
    IsTurnedAway request store (application.respond context elapsed request store) := by
  rw [respond_eq_finish notOptions, guarded_of_refused built enabled below refused]
  exact isTurnedAway_finish request store

/-- The gate is active if agents are asked for and there is a secret. -/
theorem isActive_ofConfig (config : Config) :
    (Gate.ofConfig config).isActive = (config.enableMcp && config.secret.isSome) := by
  rw [Gate.isActive, secret_ofConfig]
  cases config.enableMcp <;> rfl

/-- The service for agents is invoked exactly by the requests that its routes take and
that pass the gate. No other request depends on the service, and those that go to it and do
not pass are turned away. Those who present the secret, if there is one, pass, and nobody else
unless their credential has the digest of the secret. The gate protects what the routes of
the service take and nothing else. -/
theorem service_is_guarded (built : build config (some service) = .ok application)
    (notOptions : request.method ≠ "OPTIONS") (context : Rest.Context) (elapsed : String)
    (store : Store) :
    (Invokes config context elapsed request store ↔
      config.enableMcp = true ∧ (mountRoutes config).any (Route.accepts request.path) = true ∧
        Passes config request.headers) ∧
    (Spares config context elapsed request store ↔
      ¬ Invokes config context elapsed request store) ∧
    (config.enableMcp = true →
      (request.path = config.mountPath ∨
        (config.mountPath ++ "/").toList <+: request.path.toList) →
      ¬ Passes config request.headers →
        IsTurnedAway request store (application.respond context elapsed request store)) ∧
    (Admits config request.headers → Passes config request.headers) ∧
    (NoCollision config request.headers →
      (Passes config request.headers ↔ Admits config request.headers)) ∧
    (config.enableMcp = true → ∀ path,
      (∃ agents, application.destination path = .agents agents) ↔
        application.gate.protects path = true) ∧
    application.gate.mountPath = config.mountPath ∧
    (context.config = config → (Rest.statusJson context).get? "mcp_auth" =
      some (.bool application.gate.isActive)) := by
  have isConfig : application.config = config := by rw [(eq_of_build built).2]
  have routed_iff : (mountRoutes config).any (Route.accepts request.path) = true ↔
      Config.isAtOrBelow request.path config.mountPath = true := any_accepts_iff
  have below_iff : Config.isAtOrBelow request.path config.mountPath = true ↔
      request.path = config.mountPath ∨
        (config.mountPath ++ "/").toList <+: request.path.toList := by
    rw [Config.isAtOrBelow_iff, String.toList_append]
    refine or_congr_right (exists_congr fun rest => ?_)
    rw [List.append_assoc, eq_comm]
    rfl
  rw [routed_iff, ← below_iff, gate, isConfig]
  refine ⟨invokes_iff built notOptions, spares_iff_not_invokes built notOptions,
    respond_of_refused built notOptions, passes_of_admits, passes_iff_admits,
    fun enabled path => ?_, mountPath_ofConfig config, ?_⟩
  · rw [leads_to_agents_iff built, Gate.protects, mountPath_ofConfig]
    exact and_iff_right enabled
  · rintro rfl
    rw [isActive_ofConfig]
    rfl

/-- The default configuration with a secret. -/
def keyed : Config := { Config.default with apiKey := some "k" }

/-- A request below the default mount path with that secret. -/
def keyedRequest : Request where
  method := "POST"
  path := "/mcp/message"
  query := none
  headers := [("x-api-key", bytesOf "k")]
  body := ByteArray.empty

/-- The request with the secret invokes the service, and with another credential it is turned
away. -/
theorem keyedRequest_is_decided :
    let context : Rest.Context := ⟨keyed, ⟨1, ⟨0⟩⟩, 0⟩
    let strange : Request := { keyedRequest with headers := [("x-api-key", bytesOf "x")] }
    build keyed (some acknowledge) = .ok ⟨keyed, some acknowledge⟩ ∧
    keyedRequest.method ≠ "OPTIONS" ∧ strange.method ≠ "OPTIONS" ∧
    Invokes keyed context "0.1" keyedRequest (Store.empty 0) ∧
    IsTurnedAway strange (Store.empty 0)
      ((⟨keyed, some acknowledge⟩ : Application).respond context "0.1" strange
        (Store.empty 0)) := by
  intro context strange
  have built : build keyed (some acknowledge) = .ok ⟨keyed, some acknowledge⟩ := rfl
  have notOptions : keyedRequest.method ≠ "OPTIONS" := by decide
  have strangeNotOptions : strange.method ≠ "OPTIONS" := notOptions
  have isSecret : keyed.secret = some "k" := rfl
  have presented : ∀ credential, credential ≠ [] →
      Presents [("x-api-key", credential)] credential :=
    fun _ nonempty => .direct (by simp [Headers.get?]) nonempty
  refine ⟨built, notOptions, strangeNotOptions, ?_, ?_⟩
  · have guarded := service_is_guarded built notOptions context "0.1" (Store.empty 0)
    have admitted : Admits keyed keyedRequest.headers := by
      intro key isKey
      cases isSecret.symm.trans isKey
      exact presented _ (by decide)
    exact guarded.1.2 ⟨rfl, by decide, guarded.2.2.2.1 admitted⟩
  · have guarded := service_is_guarded built strangeNotOptions context "0.1" (Store.empty 0)
    refine guarded.2.2.1 rfl (.inr (by decide)) fun passes => ?_
    obtain ⟨credential, presents, sameDigest⟩ := passes "k" isSecret
    have isStrange : credential = bytesOf "x" := Option.some.inj
      ((presents_iff.1 presents).symm.trans (presents_iff.1 (presented _ (by decide))))
    have differ : Digest.digest (bytesOf "x") ≠ Digest.digest (bytesOf "k") := by decide +kernel
    exact differ (isStrange ▸ sameDigest)

end ContextDb.Server.Application
