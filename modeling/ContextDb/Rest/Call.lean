import ContextDb.Rest.Encoding
import ContextDb.Rest.Endpoint
import ContextDb.Rest.Input

/-!
# From requests to operations

A request to an endpoint asks for one operation of the store, or for something
that is known without it. What is asked is decided here; how the answer is
written follows from it.
-/

namespace ContextDb.Rest

open Http

/-- What a request asks for. -/
inductive Call where
  | health
  | status
  | components
  | counters
  | operation (operation : Operation)

/-- The number of hits if a query does not limit it. -/
def defaultLimit : Nat := 10

/-- The files of a pack from their fields. -/
def packFiles (files : List packFileShape.Value) : List PackFile :=
  files.map fun (path, content, ()) => ⟨path, content⟩

/-- What a request to an endpoint asks for. `captured` is the part of the path
that the endpoint captures. -/
def Endpoint.call (endpoint : Endpoint) (captured : String) (request : Request) :
    Except Rejection Call :=
  match endpoint with
  | .health => .ok .health
  | .systemStatus => .ok .status
  | .debugHealth => .ok .components
  | .observer => .ok .counters
  | .addResource => do
    let (uri, content, ()) ← readBody addResourceBody request
    return .operation (.addResource uri content)
  | .listResources => do
    let (under, ()) ← readQuery listResourcesQuery request
    return .operation (.listResources under)
  | .ls => do
    let (uri, ()) ← readQuery uriQuery request
    return .operation (.ls uri)
  | .stat => do
    let (uri, ()) ← readQuery uriQuery request
    return .operation (.stat uri)
  | .mkdir => do
    let (uri, ()) ← readBody mkdirBody request
    return .operation (.mkdir uri)
  | .mv => do
    let (source, destination, ()) ← readBody mvBody request
    return .operation (.mv source destination)
  | .rm => do
    let (uri, recursive, ()) ← readQuery rmQuery request
    return .operation (.rm uri (Option.getD recursive false))
  | .readContent => do
    let (uri, ()) ← readQuery uriQuery request
    return .operation (.read uri)
  | .abstract => do
    let (uri, ()) ← readQuery uriQuery request
    return .operation (.abstractOf uri)
  | .find => do
    let (query, target, limit, ()) ← readBody findBody request
    return .operation (.find query target (Option.getD limit defaultLimit))
  | .grep => do
    let (uri, pattern, caseInsensitive, ()) ← readBody grepBody request
    return .operation (.grep uri pattern (Option.getD caseInsensitive false))
  | .glob => do
    let (pattern, uri, ()) ← readQuery globQuery request
    return .operation (.glob pattern uri)
  | .listRelations => do
    let (uri, ()) ← readQuery uriQuery request
    return .operation (.relations uri)
  | .link => do
    let (source, targets, reason, ()) ← readBody linkBody request
    return .operation (.link source targets (Option.getD reason ""))
  | .unlink => do
    let (source, target, ()) ← readQuery unlinkQuery request
    return .operation (.unlink source target)
  | .createSession => .ok (.operation .createSession)
  | .listSessions => .ok (.operation .listSessions)
  | .getSession => do
    let id ← readId sessionCapture captured
    return .operation (.getSession id)
  | .deleteSession => do
    let id ← readId sessionCapture captured
    return .operation (.deleteSession id)
  | .addMessage => do
    let id ← readId sessionCapture captured
    let (role, content, ()) ← readBody addMessageBody request
    return .operation (.addMessage id role content)
  | .exportPack => do
    let (uri, ()) ← readQuery uriQuery request
    return .operation (.exportPack uri)
  | .importPack => do
    let (uri, files, ()) ← readBody importPackBody request
    return .operation (.importPack uri (packFiles files))

/-- The content at an address in JSON. -/
def contentJson (uri content : String) : Json :=
  .obj [("uri", .str uri), ("content", .str content)]

/-- The result of an operation in JSON. Contents come with the address as it was
given, and removed addresses under a name. -/
def present : Operation → Answer → Json
  | .read uri, .text content => contentJson uri content
  | .abstractOf uri, .text content => contentJson uri content
  | .rm .., .uris removed => .obj [("removed", .ofStrings removed)]
  | _, answer => answer.toJson

/-- The status of the answer to an operation that succeeds. -/
def successStatus : Operation → Nat
  | .createSession => 201
  | _ => 200

end ContextDb.Rest
