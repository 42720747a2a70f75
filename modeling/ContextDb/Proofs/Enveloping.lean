import ContextDb.Proofs.Conveying
import ContextDb.Proofs.Presenting
import ContextDb.Proofs.Routing
import ContextDb.Proofs.Traversal

/-!
# The envelope of answers

What an endpoint reads of a request is what its profile says, and a request is refused
for nothing else. From this follows the form of every answer: a result or a failure, and
which of the two is told is what has happened.
-/

namespace ContextDb.Rest

open Http Json Text

variable {context : Context} {store : Store} {request : Request} {endpoint : Endpoint}
  {captured : String} {taken : List String}

/-! ## What endpoints read -/

/-- The name under which a segment captures a part of a path. -/
def Segment.captureName? : Segment → Option String
  | .literal _ => none
  | .capture name => some name

namespace Endpoint

/-- Read the identifier in the path of a request, if the endpoint captures one. -/
def extractId (endpoint : Endpoint) (captured : String) : Except Rejection Unit :=
  match endpoint.segments.findSome? Segment.captureName? with
  | none => .ok ()
  | some name => (readId name captured).map fun _ => ()

/-- Read the query of a request. -/
def extractQuery (endpoint : Endpoint) (request : Request) : Except Rejection Unit :=
  (readQuery endpoint.profile.query request).map fun _ => ()

/-- Read the body of a request, if the endpoint expects one. -/
def extractBody (endpoint : Endpoint) (request : Request) : Except Rejection Unit :=
  match endpoint.profile.body with
  | none => .ok ()
  | some shape => (readBody shape request).map fun _ => ()

/-- Read all that an endpoint expects of a request, one after the other. -/
def extract (endpoint : Endpoint) (captured : String) (request : Request) :
    Except Rejection Unit := do
  endpoint.extractId captured
  endpoint.extractQuery request
  endpoint.extractBody request

end Endpoint

namespace Endpoint

/-- The endpoint lies at a path, of which it captures these parts. -/
def LiesAt (endpoint : Endpoint) (path : String) (taken : List String) : Prop :=
  ∃ parts, pathParts? path = some parts ∧ captures? endpoint.segments parts = some taken

/-- The endpoint serves a request and captures this part of its path. -/
def Serves (endpoint : Endpoint) (captured : String) (request : Request) : Prop :=
  endpoint.method.name = request.method ∧
    ∃ taken, endpoint.LiesAt request.path taken ∧ taken.head?.getD "" = captured

end Endpoint

/-- What a request asks for. -/
def Asks (request : Request) (call : Call) : Prop :=
  ∃ endpoint captured, Endpoint.Serves endpoint captured request ∧
    endpoint.call captured request = .ok call

/-- The result of what a request asks for: something that is known without the store, counts
of what is in it, or what an operation results in. -/
inductive Yields (context : Context) (store : Store) (request : Request) : Json → Prop
  | status (asked : Asks request .status) :
      Yields context store request (.obj [("version", .str serviceVersion),
        ("mcp_enabled", .bool context.config.enableMcp),
        ("mcp_path", if context.config.enableMcp then .str context.config.mountPath else .null),
        ("mcp_auth", .bool (context.config.enableMcp && context.config.secret.isSome)),
        ("uptime_secs", .num (.int context.uptime))])
  | components (asked : Asks request .components) :
      Yields context store request (.arr [
        .obj [("name", .str "context_store"), ("healthy", .bool true),
          ("detail", .str (Nat.repr store.entries.size ++ " entries, " ++
            Nat.repr store.relations.values.flatten.length ++ " relations"))],
        .obj [("name", .str "sessions"), ("healthy", .bool true),
          ("detail", .str (Nat.repr store.sessions.length ++ " sessions"))]])
  | counters (asked : Asks request .counters) :
      Yields context store request (.obj [("entries", .num (.int store.entries.size)),
        ("relations", .num (.int store.relations.values.flatten.length)),
        ("sessions", .num (.int store.sessions.length)),
        ("uptime_secs", .num (.int context.uptime))])
  | operation {operation : Operation} {value : Json} (asked : Asks request (.operation operation))
      (results : Results store context.moment operation value) :
      Yields context store request value

/-- Why a request fails: its path leads nowhere, its endpoint cannot read what it expects,
or the operation fails. -/
inductive Fails (context : Context) (store : Store) (request : Request) : Error → Prop
  | unmatched (nowhere : ∀ endpoint taken, ¬ Endpoint.LiesAt endpoint request.path taken) :
      Fails context store request (.notFound "no such endpoint")
  | refused {endpoint : Endpoint} {captured : String} {rejection : Rejection}
      (serves : endpoint.Serves captured request)
      (unread : endpoint.extract captured request = .error rejection) :
      Fails context store request (.invalidArgument rejection.message)
  | operation {operation : Operation} {error : Error} (asked : Asks request (.operation operation))
      (failed : (store.step context.moment operation).1 = .error error) :
      Fails context store request error

/-- The endpoint at which an operation is asked for. -/
def endpointOf : Operation → Endpoint
  | .addResource .. => .addResource
  | .listResources .. => .listResources
  | .mkdir .. => .mkdir
  | .stat .. => .stat
  | .ls .. => .ls
  | .read .. => .readContent
  | .abstractOf .. => .abstract
  | .rm .. => .rm
  | .mv .. => .mv
  | .find .. => .find
  | .grep .. => .grep
  | .glob .. => .glob
  | .exportPack .. => .exportPack
  | .importPack .. => .importPack
  | .link .. => .link
  | .unlink .. => .unlink
  | .relations .. => .listRelations
  | .createSession => .createSession
  | .listSessions => .listSessions
  | .getSession .. => .getSession
  | .deleteSession .. => .deleteSession
  | .addMessage .. => .addMessage

/-- The endpoint at which something is asked for. -/
def Call.servedBy : Call → Endpoint
  | .health => .health
  | .status => .systemStatus
  | .components => .debugHealth
  | .counters => .observer
  | .operation asked => endpointOf asked

/-- What is asked for tells the endpoint: no two endpoints answer alike. -/
theorem servedBy_of_call {call : Call} (asked : endpoint.call captured request = .ok call) :
    call.servedBy = endpoint := by
  cases endpoint with
  | health | systemStatus | debugHealth | observer | createSession | listSessions =>
    cases asked
    rfl
  | addMessage =>
    obtain ⟨_, _, asked⟩ := bind_eq_ok_iff.1 asked
    obtain ⟨_, _, asked⟩ := bind_eq_ok_iff.1 asked
    cases asked
    rfl
  | addResource | listResources | ls | stat | mkdir | mv | rm | readContent | abstract | find
  | grep | glob | listRelations | link | unlink | getSession | deleteSession | exportPack
  | importPack =>
    obtain ⟨_, _, asked⟩ := bind_eq_ok_iff.1 asked
    cases asked
    rfl

/-- What is asked for has a result or fails, if it is not the state of health. -/
theorem Asks.outcome {call : Call} (asked : Asks request call) :
    call = .health ∨ (∃ value, Yields context store request value) ∨
      ∃ error, Fails context store request error := by
  cases call with
  | health => exact .inl rfl
  | status => exact .inr (.inl ⟨_, .status asked⟩)
  | components => exact .inr (.inl ⟨_, .components asked⟩)
  | counters => exact .inr (.inl ⟨_, .counters asked⟩)
  | operation operation =>
    cases outcome : (store.step context.moment operation).1 with
    | ok answer => exact .inr (.inl ⟨_, .operation asked (results_of_answer outcome)⟩)
    | error error => exact .inr (.inr ⟨_, .operation asked outcome⟩)

/-! ## What answers tell -/

section

variable (notHead : request.method ≠ "HEAD")
include notHead

theorem endpointFor?_eq_some_iff_liesAt :
    endpointFor? request.method request.path = some (endpoint, taken) ↔
      endpoint.method.name = request.method ∧ endpoint.LiesAt request.path taken := by
  rw [endpointFor?_eq_some_iff, servedAs, if_neg notHead]
  rfl

theorem serve_of_serves (serves : endpoint.Serves captured request) (context : Context)
    (store : Store) :
    ∃ taken, taken.head?.getD "" = captured ∧
      serve context request store = handle context endpoint taken request store := by
  obtain ⟨hasMethod, taken, lies, isCaptured⟩ := serves
  have routed := (endpointFor?_eq_some_iff_liesAt notHead).2 ⟨hasMethod, lies⟩
  refine ⟨taken, isCaptured, Prod.ext ?_ ?_⟩ <;>
    simp only [serve, routed, Response.forMethod, if_neg notHead]

theorem serve_of_asks {call : Call} (asked : Asks request call) :
    serve context request store = perform context store call := by
  obtain ⟨endpoint, captured, serves, called⟩ := asked
  obtain ⟨taken, rfl, handled⟩ := serve_of_serves notHead serves context store
  rw [handled, handle, called]

end

/-- A request to list a directory. -/
def listing (query : Option String) : Request :=
  ⟨"GET", "/api/v1/fs/ls", query, [], ByteArray.empty⟩

end ContextDb.Rest
