import ContextDb.Proofs.Enveloping
import ContextDb.Proofs.Guarding
import ContextDb.Proofs.Reaching

/-!
# Requests that only look

Whether a request can change the store is decided by the endpoint that serves it. The
endpoints with the method for reading and the two searches only look, and what agents
read is served by the former. So all of these leave the store as it is, whatever they
are answered.
-/

namespace ContextDb

/-- Whether an operation only looks at the store. -/
def Operation.looks : Operation → Bool
  | .listResources .. | .stat .. | .ls .. | .read .. | .abstractOf .. | .find .. | .grep ..
  | .glob .. | .exportPack .. | .relations .. | .listSessions | .getSession .. => true
  | .addResource .. | .mkdir .. | .rm .. | .mv .. | .importPack .. | .link .. | .unlink ..
  | .createSession | .deleteSession .. | .addMessage .. => false

/-- An operation that only looks leaves the store as it is. -/
theorem Store.step_snd_of_looks {operation : Operation} (looks : operation.looks = true)
    (store : Store) (moment : Moment) : (store.step moment operation).2 = store := by
  cases operation with
  | listResources | stat | ls | read | abstractOf | find | grep | glob | exportPack | relations
  | listSessions | getSession => rfl
  | addResource | mkdir | rm | mv | importPack | link | unlink | createSession | deleteSession
  | addMessage => cases looks

namespace Rest

open Http

variable {context : Context} {endpoint : Endpoint} {request : Request} {store : Store}

/-- Whether what a request asks for can be answered by looking. -/
def Call.looks : Call → Bool
  | .health | .status | .components | .counters => true
  | .operation asked => asked.looks

/-- Whether an endpoint only looks at the store. -/
def Endpoint.looks (endpoint : Endpoint) : Bool :=
  endpoint.method = .get || endpoint = .find || endpoint = .grep

/-- What a request asks for can be answered by looking exactly if its endpoint only
looks. -/
theorem Endpoint.looks_of_call {captured : String} {call : Call}
    (asked : endpoint.call captured request = .ok call) : call.looks = endpoint.looks := by
  rw [← servedBy_of_call asked]
  cases call with
  | health | status | components | counters => rfl
  | operation operation => cases operation <;> rfl

/-- The store after an operation is asked for is the store after the operation. -/
theorem perform_operation_snd (context : Context) (store : Store) (operation : Operation) :
    (perform context store (.operation operation)).2 =
      (store.step context.moment operation).2 := by
  rw [perform]
  split <;> rename_i same <;> rw [same]

theorem perform_snd {call : Call} (looks : call.looks = true) (context : Context)
    (store : Store) : (perform context store call).2 = store := by
  cases call with
  | health | status | components | counters => rfl
  | operation operation =>
    rw [perform_operation_snd, Store.step_snd_of_looks looks]

/-- An endpoint that only looks leaves the store as it is, even if it refuses the
request. -/
theorem handle_snd (looks : endpoint.looks = true) (context : Context)
    (captured : List String) (request : Request) (store : Store) :
    (handle context endpoint captured request store).2 = store := by
  rw [handle]
  split
  · rfl
  · rename_i call asked
    exact perform_snd ((Endpoint.looks_of_call asked).trans looks) context store

/-- The service leaves the store as it is if the endpoint of the request only looks. -/
theorem serve_snd
    (looks : ∀ endpoint captured,
      endpointFor? request.method request.path = some (endpoint, captured) →
        endpoint.looks = true)
    (context : Context) (store : Store) : (serve context request store).2 = store := by
  rw [serve]
  simp only
  split
  · rename_i endpoint captured routed
    exact handle_snd (looks endpoint captured routed) context captured request store
  · split <;> rfl

/-- A request that asks and does not tell: for something at any path, for the headers of
that, or for what a search finds. -/
inductive Inquiry (request : Request) : Prop
  | whole (isGet : request.method = "GET")
  | headers (isHead : request.method = "HEAD")
  | search (isPost : request.method = "POST")
      (place : request.path = "/api/v1/search/find" ∨ request.path = "/api/v1/search/grep")

/-- A request that is served like one for something at its path goes to an endpoint that
only looks. -/
theorem looks_of_servedAs_get {captured : List String} (isGet : servedAs request.method = "GET")
    (routed : endpointFor? request.method request.path = some (endpoint, captured)) :
    endpoint.looks = true := by
  obtain ⟨hasMethod, _⟩ := endpointFor?_eq_some_iff.1 routed
  have method : endpoint.method = .get := Method.name_injective (hasMethod.trans isGet)
  simp [Endpoint.looks, method]

/-- Whichever endpoint serves an inquiry only looks. -/
theorem Inquiry.looks (inquiry : Inquiry request) {captured : List String}
    (routed : endpointFor? request.method request.path = some (endpoint, captured)) :
    endpoint.looks = true := by
  cases inquiry with
  | whole isGet => exact looks_of_servedAs_get (by rw [isGet]; rfl) routed
  | headers isHead => exact looks_of_servedAs_get (by rw [isHead]; rfl) routed
  | search isPost place =>
    rw [isPost] at routed
    rcases place with atFind | atGrep
    · have finds : endpointFor? "POST" "/api/v1/search/find" = some (.find, []) :=
        endpointFor?_eq_some_iff.2 ⟨rfl, ["api", "v1", "search", "find"], rfl, rfl⟩
      rw [atFind, finds] at routed
      cases routed
      rfl
    · have greps : endpointFor? "POST" "/api/v1/search/grep" = some (.grep, []) :=
        endpointFor?_eq_some_iff.2 ⟨rfl, ["api", "v1", "search", "grep"], rfl, rfl⟩
      rw [atGrep, greps] at routed
      cases routed
      rfl

/-- A handler that never changes the store. -/
def Handler.Quiet (handler : Handler) : Prop :=
  ∀ request store, (handler request store).2 = store

end Rest

namespace Bridge

open Rest Capability

/-- A call changes the store only as the request does that it makes. -/
theorem dispatch_snd {bridge : Bridge} {action : Action} {arguments : Arguments} {store : Store}
    (quiet : ∀ request, buildRequest action arguments = .ok request →
      (bridge.backend request store).2 = store) :
    (bridge.dispatch action arguments store).2 = store := by
  rw [dispatch]
  split
  · rfl
  · rename_i request built
    exact quiet request built

/-- What agents read at an address is an endpoint with the method for reading. -/
theorem exists_get_of_readingAt? {context : Rest.Context} {address : String} {action : Action}
    {arguments : Arguments} (named : (live context).readingAt? address = some (action, arguments)) :
    ∃ endpoint : Endpoint, action = endpoint.action ∧ endpoint.method = .get := by
  have exposed : ∀ endpoint : Endpoint,
      classify defaultRules endpoint.method.name [endpoint.tag] = .resource →
        endpoint.method = .get := by
    decide +kernel
  obtain ⟨endpoint, isResource, same⟩ := mem_resources_iff.1 (mem_resources_of_readingAt? named)
  exact ⟨endpoint, same, exposed endpoint isResource⟩

/-- Reading a resource leaves the store as it is, wherever its request leads. -/
theorem readResource_snd (context : Rest.Context) (address : String) (store : Store) :
    ((live context).readResource address store).2 = store := by
  rw [readResource]
  split
  · rfl
  · rename_i action arguments named
    refine dispatch_snd fun request built => serve_snd (fun endpoint captured routed => ?_) _ _
    obtain ⟨named, rfl, isGet⟩ := exists_get_of_readingAt? named
    obtain ⟨_, _, _, _, requestMethod⟩ := exists_fillPath_of_buildRequest built
    have method : request.method = "GET" := by
      rw [requestMethod, Endpoint.action_method, isGet]
      rfl
    exact (Inquiry.whole method).looks routed

end Bridge

namespace Server.Application

open Http Rest

variable {config : Config} {service : Option Handler} {application : Application}
  {request : Request}

/-- The service for agents is the only one that paths lead to. -/
theorem service_of_destination {path : String} {agents : Handler}
    (leads : application.destination path = .agents agents) :
    application.service = some agents := by
  rw [destination] at leads
  split at leads
  · cases leads
  · split at leads
    · cases leads
    · split at leads
      · cases leads
      · rename_i found
        split at leads
        · cases leads
          exact found
        · cases leads

/-- An application with a quiet service or none leaves the store as it is when it answers
an inquiry. -/
theorem respond_snd (quiet : ∀ agents, application.service = some agents → agents.Quiet)
    (inquiry : Inquiry request) (context : Context) (elapsed : String) (store : Store) :
    (application.respond context elapsed request store).2 = store := by
  have routed : (application.route context request store).2 = store := by
    rw [route]
    split
    · rfl
    · rfl
    · rename_i agents leads
      exact quiet agents (service_of_destination leads) request store
    · exact serve_snd (fun _ _ routed => inquiry.looks routed) context store
  have guarded : (application.guarded context request store).2 = store := by
    rw [Application.guarded]
    split
    · rfl
    · exact routed
  rw [respond]
  simp only
  split
  · rfl
  · exact guarded

/-- Inquiries leave the store as it is, whatever they are answered, and so does all that
agents read. -/
theorem inquiries_leave_store (built : build config service = .ok application)
    (quiet : ∀ agents, service = some agents → agents.Quiet) (context : Context)
    (elapsed : String) (store : Store) :
    (∀ request, Inquiry request →
      (application.respond context elapsed request store).2 = store) ∧
    ∀ address, ((Bridge.live context).readResource address store).2 = store := by
  obtain ⟨_, _, made⟩ := bind_eq_ok_iff.1 built
  cases made
  refine ⟨fun request inquiry => respond_snd (fun agents isService => ?_) inquiry context elapsed
    store, fun address => Bridge.readResource_snd context address store⟩
  simp only at isService
  split at isService
  · exact quiet agents isService
  · cases isService

/-- A search of the default application with a service that answers everything alike, and
a reading whose argument leads elsewhere. -/
theorem search_leaves_store :
    build Config.default (some acknowledge) = .ok ⟨Config.default, some acknowledge⟩ ∧
    acknowledge.Quiet ∧
    ((⟨Config.default, some acknowledge⟩ : Application).respond ⟨Config.default, ⟨1, ⟨0⟩⟩, 0⟩ "0.1"
      ⟨"POST", "/api/v1/search/find", none, [], ByteArray.empty⟩ (Store.empty 0)).2 =
        Store.empty 0 ∧
    ((Bridge.live ⟨Config.default, ⟨1, ⟨0⟩⟩, 0⟩).readResource
      "resource://openviking/get_session?session_id=%0D.." (Store.empty 0)).2 = Store.empty 0 := by
  have built : build Config.default (some acknowledge) =
      .ok ⟨Config.default, some acknowledge⟩ := rfl
  have quiet : acknowledge.Quiet := fun _ _ => rfl
  have isQuiet : ∀ agents, some acknowledge = some agents → agents.Quiet := by
    rintro agents ⟨rfl⟩
    exact quiet
  have unchanged := inquiries_leave_store built isQuiet ⟨Config.default, ⟨1, ⟨0⟩⟩, 0⟩ "0.1"
    (Store.empty 0)
  exact ⟨built, quiet, unchanged.1 _ (.search rfl (.inl rfl)), unchanged.2 _⟩

end Server.Application

end ContextDb
