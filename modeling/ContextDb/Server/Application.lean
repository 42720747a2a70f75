import ContextDb.Gate
import ContextDb.Server.Cors
import ContextDb.Server.Mount

/-!
# The application

The REST interface, its documentation and, where it is mounted, the service for
agents, behind the gate; around them the measuring of time and, outermost, the
rules for other origins.
-/

namespace ContextDb.Server

open Http

/-- An application. Without a service nothing is mounted. -/
structure Application where
  config : Config
  service : Option Rest.Handler

/-- Why an application cannot be built. -/
inductive BuildFailure where
  | config (error : Error)
  | route (path : String)

namespace Application

/-- Whether an application of a configuration can be built, with a service for
agents or without one. -/
def check (config : Config) (hasService : Bool) : Except BuildFailure Unit :=
  match config.validate with
  | .error error => .error (.config error)
  | .ok () =>
    if config.enableMcp && hasService && !canMount config then .error (.route config.mountPath)
    else .ok ()

/-- Build the application of a configuration. -/
def build (config : Config) (service : Option Rest.Handler) :
    Except BuildFailure Application := do
  check config service.isSome
  return ⟨config, if config.enableMcp then service else none⟩

/-- The gate of the application. -/
def gate (application : Application) : Gate :=
  .ofConfig application.config

/-- Where a request goes by its path. -/
inductive Destination where
  | document
  | pages
  | agents (service : Rest.Handler)
  | rest

/-- Where a path leads. -/
def destination (application : Application) (path : String) : Destination :=
  if path = documentPath then .document
  else if pageRoutes.any (Route.accepts path) then .pages
  else
    match application.service with
    | none => .rest
    | some service =>
      if (mountRoutes application.config).any (Route.accepts path) then .agents service
      else .rest

/-- The methods that the documentation serves. -/
def pageMethods : String := "GET,HEAD"

/-- The pages about the interface. The first of them is found after a redirection,
and none of them is served from here. -/
def servePages (path : String) : Response :=
  if path = pagesPath then .empty 303 [header "location" (pagesPath ++ "/")] else .empty 404 []

/-- Answer a request for documentation. -/
def serveDocuments (request : Request) (page : Response) : Response :=
  if Rest.servedAs request.method = "GET" then page else Rest.methodNotAllowed pageMethods

/-- Answer a request that has passed the gate. -/
def route (application : Application) (context : Rest.Context) (request : Request)
    (store : Store) : Response × Store :=
  match application.destination request.path with
  | .document => (serveDocuments request (.ofJson 200 Rest.document), store)
  | .pages => (serveDocuments request (servePages request.path), store)
  | .agents service => service request store
  | .rest => Rest.serve context request store

/-- Answer a request, or turn it away at the gate. -/
def guarded (application : Application) (context : Rest.Context) (request : Request)
    (store : Store) : Response × Store :=
  match application.gate.check request.path request.headers with
  | .error error => (.ofError error, store)
  | .ok () => application.route context request store

/-- The header that says how long a request took, in seconds. -/
def timeHeader (elapsed : String) : String × List UInt8 :=
  header "x-process-time" elapsed

/-- A response with the time that it took in place of any other, if that can be the
value of a header. -/
def stamp (elapsed : String) (response : Response) : Response :=
  if isHeaderValue (timeHeader elapsed).2 then
    { response with headers := response.headers.put (timeHeader elapsed) }
  else response

/-- The methods that are announced where only this is asked. The service for
agents and paths that lead nowhere announce none. -/
def announced (path : String) : Headers :=
  if path = documentPath || pageRoutes.any (Route.accepts path) then
    [header "allow" pageMethods]
  else if (Rest.endpointsAt path).isEmpty then []
  else [header "allow" (Rest.allowed path)]

/-- Answer a request. `elapsed` is the time that it took, as it is written. -/
def respond (application : Application) (context : Rest.Context) (elapsed : String)
    (request : Request) (store : Store) : Response × Store :=
  let origins := Origins.ofConfig application.config
  if request.method = "OPTIONS" then
    (.empty 200 (origins.preflight request.headers ++ announced request.path), store)
  else
    let (response, store) := application.guarded context request store
    let stamped := stamp elapsed response
    let headers := stamped.headers ++ origins.headers request.headers
    (Rest.Response.forMethod request.method { stamped with headers }, store)

end Application

end ContextDb.Server
