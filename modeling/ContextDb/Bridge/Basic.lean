import ContextDb.Bridge.Address
import ContextDb.Bridge.Request
import ContextDb.Capability.Catalog
import ContextDb.Rest.Document
import ContextDb.Rest.Service

/-!
# The bridge for agents

Agents call tools and read resources by name. Each call is made as a request to
the interface that the catalog describes, and the body of the reply is the
answer.
-/

namespace ContextDb

open Http Text

/-- A catalog of actions and what performs them. -/
structure Bridge where
  catalog : Capability.Catalog
  backend : Rest.Handler

namespace Bridge

/-- The result of a tool. -/
structure ToolResult where
  isError : Bool
  text : String
  deriving DecidableEq, Repr

/-- The greatest length of a reply in bytes. -/
def maxReplyBytes : Nat := 16 * 1024 * 1024

/-- Whether a status reports success. -/
def isSuccess (status : Nat) : Bool :=
  200 ≤ status && status < 300

/-- The text of a reply. -/
def replyText (response : Response) : Except Failure String :=
  if maxReplyBytes < response.body.size then .error .replyTooLong
  else .ok (decodeLossy response.body)

/-- Perform an action with arguments, for its status and its text. -/
def dispatch (bridge : Bridge) (action : Capability.Action) (arguments : Arguments)
    (store : Store) : Except Failure (Nat × String) × Store :=
  match buildRequest action arguments with
  | .error failure => (.error failure, store)
  | .ok request =>
    let (response, store) := bridge.backend request store
    ((replyText response).map fun text => (response.status, text), store)

/-- Call a tool. A reply that reports a failure is an answer too. -/
def callTool (bridge : Bridge) (name : String) (arguments : Arguments) (store : Store) :
    Except Failure ToolResult × Store :=
  match bridge.catalog.tool? name with
  | none => (.error (.unknownTool name), store)
  | some action =>
    let (result, store) := bridge.dispatch action arguments store
    (result.map fun (status, text) => ⟨!isSuccess status, text⟩, store)

/-- The action that an address names, with its arguments. -/
def readingAt? (bridge : Bridge) (address : String) :
    Option (Capability.Action × Arguments) := do
  let reading ← Reading.ofAddress? address
  let action ← bridge.catalog.resource? reading.name
  return (action, reading.arguments.mapValues .str)

/-- The text of a reply that succeeds. -/
def acceptReply (status : Nat) (text : String) : Except Failure String :=
  if isSuccess status then .ok text else .error (.refused status text)

/-- Read the resource at an address. -/
def readResource (bridge : Bridge) (address : String) (store : Store) :
    Except Failure String × Store :=
  match bridge.readingAt? address with
  | none => (.error (.unknownResource address), store)
  | some (action, arguments) =>
    let (result, store) := bridge.dispatch action arguments store
    (result.bind fun (status, text) => acceptReply status text, store)

/-- The catalog of the REST interface. -/
def ownCatalog : Capability.Catalog :=
  .build Rest.document Capability.defaultRules

/-- The bridge to the REST interface. -/
def live (context : Rest.Context) : Bridge :=
  ⟨ownCatalog, Rest.serve context⟩

end Bridge

end ContextDb
