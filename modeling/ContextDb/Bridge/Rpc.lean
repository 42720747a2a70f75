import ContextDb.Bridge.Basic
import ContextDb.Bridge.Message

/-!
# Requests of agents

What the bridge answers to the requests of an agent. A request that the bridge
does not offer and one whose parameters cannot be used are answered alike.
-/

namespace ContextDb.Bridge.Rpc

open Json Capability

/-- A request of an agent. -/
inductive Query where
  /-- the agent introduces itself, and a version of the protocol is named -/
  | introduce (version : String)
  | ping
  | listTools
  | callTool (name : String) (arguments : Arguments)
  | listResources
  | readResource (address : String)
  | listTemplates
  | listPrompts
  | complete

/-- An error as it is reported: its code and its message. -/
structure Fault where
  code : Int
  message : String
  deriving DecidableEq, Repr

/-- The fault for a request that cannot be answered. -/
def methodNotFound (method : String) : Fault :=
  ⟨-32601, method⟩

/-- The fault by which a failure is reported. -/
def Fault.ofFailure (failure : Failure) : Fault :=
  ⟨failure.code, failure.message⟩

/-- A text among parameters. -/
def textAt (parameters : Json) (name : String) : String :=
  ((parameters.get? name).bind text?).getD ""

/-- The arguments of a call, which may be missing. -/
def argumentsOf (parameters : Json) : Arguments :=
  .ofList (((parameters.get? "arguments").bind members?).getD [])

/-- The request that a method makes of parameters, if it is offered and the
parameters have its form. -/
def Query.ofMethod? (parameters : Option Json) : String → Option Query
  | "initialize" => (parameters.filter introductionForm).map fun given =>
    .introduce (textAt given "protocolVersion")
  | "ping" => some .ping
  | "tools/list" => if listingForm parameters then some .listTools else none
  | "tools/call" => (parameters.filter callForm).map fun given =>
    .callTool (textAt given "name") (argumentsOf given)
  | "resources/list" => if listingForm parameters then some .listResources else none
  | "resources/read" => (parameters.filter readingForm).map fun given =>
    .readResource (textAt given "uri")
  | "resources/templates/list" => if listingForm parameters then some .listTemplates else none
  | "prompts/list" => if listingForm parameters then some .listPrompts else none
  | "completion/complete" => (parameters.filter completionForm).map fun _ => .complete
  | _ => none

/-- What the bridge tells agents about its use. -/
def instructions : String :=
  "OpenViking stores agent context under viking:// URIs. Read state through resources " ++
    "(append query parameters to the resource URI) and change it with tools such as " ++
    "add_resource, fs_mkdir, link or add_message."

/-- How the bridge introduces itself. -/
def introduction (version : String) : Json :=
  .obj [("protocolVersion", .str version),
    ("capabilities", .obj [("resources", .obj []), ("tools", .obj [])]),
    ("serverInfo", .obj [("name", .str "OpenViking MCP"),
      ("title", .str "OpenViking Context Database"), ("version", .str Rest.serviceVersion)]),
    ("instructions", .str instructions)]

/-- A tool as it is listed. -/
def toolJson (action : Action) : Json :=
  .obj [("name", .str action.id), ("description", .str action.describe),
    ("inputSchema", action.inputSchema)]

/-- A resource as it is listed. -/
def resourceJson (action : Action) : Json :=
  .obj [("uri", .str action.address), ("name", .str action.id),
    ("description", .str action.describe), ("mimeType", .str "application/json")]

/-- The result of a tool in a reply. -/
def resultJson (result : ToolResult) : Json :=
  .obj [("content", .arr [.obj [("type", .str "text"), ("text", .str result.text)]]),
    ("isError", .bool result.isError)]

/-- The contents of a resource in a reply. -/
def contentsJson (address text : String) : Json :=
  .obj [("contents", .arr [.obj [("uri", .str address), ("mimeType", .str "text"),
    ("text", .str text)]])]

/-- An outcome as it is reported. -/
def report {α : Type} (encode : α → Json) (outcome : Except Failure α × Store) :
    Except Fault Json × Store :=
  ((outcome.1.map encode).mapError Fault.ofFailure, outcome.2)

/-- Answer a request of an agent. -/
def perform (bridge : Bridge) (store : Store) : Query → Except Fault Json × Store
  | .introduce version => (.ok (introduction version), store)
  | .ping => (.ok (.obj []), store)
  | .listTools => (.ok (.obj [("tools", .arr (bridge.catalog.tools.map toolJson))]), store)
  | .callTool name arguments => report resultJson (bridge.callTool name arguments store)
  | .listResources =>
    (.ok (.obj [("resources", .arr (bridge.catalog.resources.map resourceJson))]), store)
  | .readResource address =>
    report (contentsJson address) (bridge.readResource address store)
  | .listTemplates => (.ok (.obj [("resourceTemplates", .arr [])]), store)
  | .listPrompts => (.ok (.obj [("prompts", .arr [])]), store)
  | .complete => (.ok (.obj [("completion", .obj [("values", .arr [])])]), store)

/-- The reply to a request with an identifier. -/
def reply (id : Identifier) : Except Fault Json → Json
  | .ok result => .obj [("jsonrpc", .str "2.0"), ("id", id.toJson), ("result", result)]
  | .error fault =>
    .obj [("jsonrpc", .str "2.0"), ("id", id.toJson),
      ("error", .obj [("code", .num (.int fault.code)), ("message", .str fault.message)])]

end ContextDb.Bridge.Rpc
