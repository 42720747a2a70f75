import ContextDb.Config.Basic
import ContextDb.Rest.Call
import ContextDb.Rest.Document

/-!
# The REST service

Requests are routed by their path, segment by segment and without decoding, and
then by their method. Every answer to a handled request is an envelope with a
result or an error.
-/

namespace ContextDb.Rest

open Http Text

/-- What the service knows when a request arrives. -/
structure Context where
  config : Config
  moment : Moment
  /-- for how many seconds the service has been running -/
  uptime : Nat

/-- What answers requests. An answer may change the store. -/
abbrev Handler := Request → Store → Response × Store

/-- The parts of a path between slashes, for a path that begins with one. -/
def pathParts? (path : String) : Option (List String) :=
  match path.toList with
  | '/' :: rest => some ((pieces '/' rest).map String.ofList)
  | _ => none

/-- The parts of a path that the segments of an endpoint capture, if the path has
its form. Only the last part of a path cannot be captured if it is empty. -/
def captures? : List Segment → List String → Option (List String)
  | [], [] => some []
  | .literal text :: segments, part :: parts =>
    if text = part then captures? segments parts else none
  | .capture _ :: segments, part :: parts =>
    if part.isEmpty && parts.isEmpty then none else (captures? segments parts).map (part :: ·)
  | _, _ => none

/-- The endpoints at a path with what they capture from it. -/
def endpointsAt (path : String) : List (Endpoint × List String) :=
  match pathParts? path with
  | none => []
  | some parts =>
    Endpoint.all.filterMap fun endpoint =>
      (captures? endpoint.segments parts).map (endpoint, ·)

/-- The method whose handler serves a request: a request for the headers alone is
served like one for the whole. -/
def servedAs (method : String) : String :=
  if method = "HEAD" then "GET" else method

/-- The endpoint that serves a method at a path. -/
def endpointFor? (method path : String) : Option (Endpoint × List String) :=
  (endpointsAt path).find? fun (endpoint, _) => endpoint.method.name = servedAs method

/-- The methods that an endpoint serves. -/
def Method.served : Method → List String
  | .get => ["GET", "HEAD"]
  | method => [method.name]

/-- The methods that are served at a path, as they are announced. -/
def allowed (path : String) : String :=
  ",".intercalate ((endpointsAt path).flatMap fun (endpoint, _) => endpoint.method.served)

/-- The component states of the service. -/
def componentsJson (store : Store) : Json :=
  let (entries, relations, sessions) := store.counts
  let component (name detail : String) : Json :=
    .obj [("name", .str name), ("healthy", .bool true), ("detail", .str detail)]
  .arr [component "context_store"
      (Nat.repr entries ++ " entries, " ++ Nat.repr relations ++ " relations"),
    component "sessions" (Nat.repr sessions ++ " sessions")]

/-- The counters of the service. -/
def countersJson (context : Context) (store : Store) : Json :=
  let (entries, relations, sessions) := store.counts
  .obj [("entries", .ofNat entries), ("relations", .ofNat relations),
    ("sessions", .ofNat sessions), ("uptime_secs", .ofNat context.uptime)]

/-- The state of the service. -/
def statusJson (context : Context) : Json :=
  let config := context.config
  .obj [("version", .str serviceVersion), ("mcp_enabled", .bool config.enableMcp),
    ("mcp_path", if config.enableMcp then .str config.mountPath else .null),
    ("mcp_auth", .bool (config.enableMcp && config.secret.isSome)),
    ("uptime_secs", .ofNat context.uptime)]

/-- The state of health, which is not in an envelope. -/
def healthJson : Json :=
  .obj [("status", .str "ok"), ("version", .str serviceVersion)]

/-- Answer what a request asks for. -/
def perform (context : Context) (store : Store) : Call → Response × Store
  | .health => (.ofJson 200 healthJson, store)
  | .status => (.ofJson 200 (okBody (statusJson context)), store)
  | .components => (.ofJson 200 (okBody (componentsJson store)), store)
  | .counters => (.ofJson 200 (okBody (countersJson context store)), store)
  | .operation operation =>
    match store.step context.moment operation with
    | (.ok answer, store) =>
      (.ofJson (successStatus operation) (okBody (present operation answer)), store)
    | (.error error, store) => (.ofError error, store)

/-- Handle a request at an endpoint. -/
def handle (context : Context) (endpoint : Endpoint) (captured : List String)
    (request : Request) (store : Store) : Response × Store :=
  match endpoint.call (captured.head?.getD "") request with
  | .error rejection => (.ofError rejection.error, store)
  | .ok call => perform context store call

/-- The answer at a path without endpoints. -/
def notFound : Response :=
  .ofError (.notFound "no such endpoint")

/-- The answer to a method that is not served at a path. -/
def methodNotAllowed (methods : String) : Response :=
  .empty 405 [header "allow" methods]

/-- A response as it is sent: the answer to a request for the headers alone has
no body. -/
def Response.forMethod (method : String) (response : Response) : Response :=
  if method = "HEAD" then { response with body := ByteArray.empty } else response

/-- Serve requests. -/
def serve (context : Context) : Handler := fun request store =>
  let (response, store) :=
    match endpointFor? request.method request.path with
    | some (endpoint, captured) => handle context endpoint captured request store
    | none =>
      if (endpointsAt request.path).isEmpty then (notFound, store)
      else (methodNotAllowed (allowed request.path), store)
  (Response.forMethod request.method response, store)

end ContextDb.Rest
