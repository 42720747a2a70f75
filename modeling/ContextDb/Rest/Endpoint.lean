import ContextDb.Rest.Schema
import ContextDb.Rest.Shapes

/-!
# Endpoints

The operations of the REST interface: where each is found, what it expects and
what it answers. Routing, reading of requests and the description of the
interface all go back to this table.
-/

namespace ContextDb.Rest

open Json

/-- The methods that endpoints have. -/
inductive Method where
  | get
  | post
  | delete
  deriving DecidableEq, Repr

/-- The name of a method in a request. -/
def Method.name : Method → String
  | .get => "GET"
  | .post => "POST"
  | .delete => "DELETE"

/-- The name of a method in a description. -/
def Method.key : Method → String
  | .get => "get"
  | .post => "post"
  | .delete => "delete"

/-- A segment of the path of an endpoint: fixed, or captured under a name. -/
inductive Segment where
  | literal (text : String)
  | capture (name : String)
  deriving DecidableEq, Repr

/-- The form of a segment in a description. -/
def Segment.template : Segment → String
  | .literal text => text
  | .capture name => "\x7b" ++ name ++ "\x7d"

/-- The endpoints of the REST interface. -/
inductive Endpoint where
  | health
  | systemStatus
  | debugHealth
  | addResource
  | listResources
  | ls
  | stat
  | mkdir
  | mv
  | rm
  | readContent
  | abstract
  | find
  | grep
  | glob
  | listRelations
  | link
  | unlink
  | createSession
  | listSessions
  | getSession
  | deleteSession
  | addMessage
  | exportPack
  | importPack
  | observer
  deriving DecidableEq, Repr

/-- An answer of an endpoint, with the type of its result if it has one. -/
structure Reply where
  status : Nat
  about : String
  result : Option SchemaType

/-- What is known of an endpoint. -/
structure Profile where
  id : String
  method : Method
  segments : List Segment
  tag : String
  summary : String
  query : Fields
  body : Option Shape
  replies : List Reply

/-- The path of segments below the versioned root of the interface. -/
def versioned (segments : List String) : List Segment :=
  (["api", "v1"] ++ segments).map .literal

/-- The reply to a request that succeeds. -/
def ok (about : String) (result : SchemaType) : Reply :=
  ⟨200, about, some result⟩

/-- The reply that reports a failure. -/
def failure (status : Nat) (about : String) : Reply :=
  ⟨status, about, some (.named "ErrorInfo")⟩

/-- The name under which session identifiers are captured. -/
def sessionCapture : String := "session_id"

/-- The path of one session. -/
def sessionSegments : List Segment :=
  versioned ["sessions"] ++ [.capture sessionCapture]

/-- What is known of each endpoint. -/
def Endpoint.profile : Endpoint → Profile
  | .health =>
    ⟨"health", .get, [.literal "health"], "system", "Health check endpoint", noQuery, none,
      [ok "Service is healthy" (.named "HealthResponse")]⟩
  | .systemStatus =>
    ⟨"system_status", .get, versioned ["system", "status"], "system", "Server status", noQuery,
      none, [ok "Server status" (.named "SystemStatus")]⟩
  | .debugHealth =>
    ⟨"debug_health", .get, versioned ["debug", "health"], "debug", "Component health for debugging",
      noQuery, none, [ok "Component health" (.list (.named "ComponentStatus"))]⟩
  | .addResource =>
    ⟨"add_resource", .post, versioned ["resources"], "resources", "Add a text resource", noQuery,
      some addResourceBody,
      [ok "Resource stored" (.named "Entry"), failure 400 "Invalid URI",
        failure 409 "A directory exists at the URI"]⟩
  | .listResources =>
    ⟨"list_resources", .get, versioned ["resources"], "resources", "List stored resources",
      listResourcesQuery, none, [ok "Resources" (.list (.named "Entry"))]⟩
  | .ls =>
    ⟨"fs_ls", .get, versioned ["fs", "ls"], "filesystem", "List a directory", uriQuery, none,
      [ok "Directory entries" (.list (.named "Entry")), failure 404 "Not found"]⟩
  | .stat =>
    ⟨"fs_stat", .get, versioned ["fs", "stat"], "filesystem", "Describe one entry", uriQuery, none,
      [ok "Entry" (.named "Entry"), failure 404 "Not found"]⟩
  | .mkdir =>
    ⟨"fs_mkdir", .post, versioned ["fs", "mkdir"], "filesystem",
      "Create a directory and its parents", noQuery, some mkdirBody,
      [ok "Directory" (.named "Entry")]⟩
  | .mv =>
    ⟨"fs_mv", .post, versioned ["fs", "mv"], "filesystem", "Move an entry with its subtree",
      noQuery, some mvBody, [ok "Moved entry" (.named "Entry"), failure 409 "Destination exists"]⟩
  | .rm =>
    ⟨"fs_rm", .delete, versioned ["fs"], "filesystem", "Remove an entry", rmQuery, none,
      [ok "Removed URIs" (.named "RemovedResponse"), failure 412 "Directory not empty"]⟩
  | .readContent =>
    ⟨"read_content", .get, versioned ["content", "read"], "content", "Read file content", uriQuery,
      none, [ok "File content" (.named "ContentResponse"), failure 404 "Not found"]⟩
  | .abstract =>
    ⟨"get_abstract", .get, versioned ["content", "abstract"], "content",
      "One-line abstract of a file or directory", uriQuery, none,
      [ok "Abstract" (.named "ContentResponse")]⟩
  | .find =>
    ⟨"find", .post, versioned ["search", "find"], "search", "Rank files by query terms", noQuery,
      some findBody, [ok "Ranked hits" (.list (.named "FindHit"))]⟩
  | .grep =>
    ⟨"grep", .post, versioned ["search", "grep"], "search", "Find lines containing a pattern",
      noQuery, some grepBody, [ok "Matching lines" (.list (.named "GrepMatch"))]⟩
  | .glob =>
    ⟨"glob", .get, versioned ["search", "glob"], "search",
      "Match file URIs against a wildcard pattern", globQuery, none,
      [ok "Matching URIs" (.list .text)]⟩
  | .listRelations =>
    ⟨"list_relations", .get, versioned ["relations"], "relations", "Relations from an entry",
      uriQuery, none, [ok "Relations" (.list (.named "Relation"))]⟩
  | .link =>
    ⟨"link", .post, versioned ["relations", "link"], "relations", "Link an entry to others",
      noQuery, some linkBody,
      [ok "Relations after linking" (.list (.named "Relation")), failure 404 "Endpoint missing"]⟩
  | .unlink =>
    ⟨"unlink", .delete, versioned ["relations", "link"], "relations", "Remove a relation",
      unlinkQuery, none, [⟨200, "Relation removed", none⟩, failure 404 "No such relation"]⟩
  | .createSession =>
    ⟨"create_session", .post, versioned ["sessions"], "sessions", "Start a session", noQuery, none,
      [⟨201, "Session created", some (.named "Session")⟩]⟩
  | .listSessions =>
    ⟨"list_sessions", .get, versioned ["sessions"], "sessions", "List sessions", noQuery, none,
      [ok "Sessions" (.list (.named "SessionMeta"))]⟩
  | .getSession =>
    ⟨"get_session", .get, sessionSegments, "sessions", "Get a session with its messages", noQuery,
      none, [ok "Session" (.named "Session"), failure 404 "Not found"]⟩
  | .deleteSession =>
    ⟨"delete_session", .delete, sessionSegments, "sessions", "Delete a session", noQuery, none,
      [⟨200, "Session deleted", none⟩, failure 404 "Not found"]⟩
  | .addMessage =>
    ⟨"add_message", .post, sessionSegments ++ [.literal "messages"], "sessions",
      "Append a message to a session", noQuery, some addMessageBody,
      [ok "Updated session" (.named "Session"), failure 400 "Invalid role"]⟩
  | .exportPack =>
    ⟨"export_pack", .get, versioned ["pack", "export"], "pack", "Export a subtree as a pack",
      uriQuery, none, [ok "Pack" (.named "Pack"), failure 404 "Not found"]⟩
  | .importPack =>
    ⟨"import_pack", .post, versioned ["pack", "import"], "pack", "Unpack files below a directory",
      noQuery, some importPackBody,
      [ok "Written URIs" (.list .text), failure 400 "Invalid path in pack"]⟩
  | .observer =>
    ⟨"observer_system", .get, versioned ["observer", "system"], "observer", "Live store counters",
      noQuery, none, [ok "Counters" (.named "ObserverSnapshot")]⟩

namespace Endpoint

/-- Every endpoint. Where endpoints share a path, their methods are announced in
this order. -/
def all : List Endpoint :=
  [.health, .systemStatus, .debugHealth, .addResource, .listResources, .ls, .stat, .mkdir, .mv,
    .rm, .readContent, .abstract, .find, .grep, .glob, .listRelations, .link, .unlink,
    .createSession, .listSessions, .getSession, .deleteSession, .addMessage, .exportPack,
    .importPack, .observer]

/-- The method of an endpoint. -/
def method (endpoint : Endpoint) : Method :=
  endpoint.profile.method

/-- The segments of the path of an endpoint. -/
def segments (endpoint : Endpoint) : List Segment :=
  endpoint.profile.segments

/-- The path of an endpoint as it is described. -/
def template (endpoint : Endpoint) : String :=
  String.join (endpoint.segments.map fun segment => "/" ++ segment.template)

/-- The tag of an endpoint. -/
def tag (endpoint : Endpoint) : String :=
  endpoint.profile.tag

end Endpoint

end ContextDb.Rest
