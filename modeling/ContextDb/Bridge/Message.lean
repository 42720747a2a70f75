import ContextDb.Bridge.Form

/-!
# Messages of agents

An agent sends messages of JSON-RPC. A message with an identifier is a request
and gets a reply under the same identifier; a message without one is a
notification and gets none. Here is what a message says and whether its
parameters can be used.
-/

namespace ContextDb.Bridge

open Json

/-- The identifier of a request: a text, or a signed integer of 64 bits. -/
inductive Identifier where
  | number (value : Int)
  | text (value : String)
  deriving DecidableEq, Repr

/-- The greatest number that identifies a request. -/
def Identifier.maxNumber : Int := 9223372036854775807

/-- The identifier that a value stands for. -/
def Identifier.ofJson? : Json → Option Identifier
  | .num (.int value) => if value ≤ maxNumber then some (.number value) else none
  | .str value => some (.text value)
  | _ => none

/-- An identifier in JSON. -/
def Identifier.toJson : Identifier → Json
  | .number value => .num (.int value)
  | .text value => .str value

/-- A message. Its parameters may be missing. -/
inductive Message where
  | request (id : Identifier) (method : String) (parameters : Option Json)
  | notification (method : String)

/-- The message that a value stands for. It names the version of the protocol and
a method. An identifier of another form identifies nothing. -/
def Message.ofJson? (value : Json) : Option Message := do
  let version ← (value.get? "jsonrpc").bind text?
  let method ← (value.get? "method").bind text?
  if version ≠ "2.0" then none
  else
    match (value.get? "id").bind Identifier.ofJson? with
    | some id => return .request id method (value.get? "params")
    | none => return .notification method

/-! ## Forms -/

/-- What an agent tells about a picture of itself. -/
def iconForm : Form :=
  .record [.required "src" .text, .optional "mimeType" .text, .optional "sizes" (.list .text)]

/-- What an agent tells about itself. -/
def agentForm : Form :=
  .record [.required "name" .text, .optional "title" .text, .required "version" .text,
    .optional "icons" (.list iconForm), .optional "websiteUrl" .text]

/-- What an agent can do. -/
def abilitiesForm : Form :=
  .record [.optional "experimental" (.table .object),
    .optional "roots" (.record [.optional "listChanged" .flag]),
    .optional "sampling" .object,
    .optional "elicitation" (.record [.optional "schemaValidation" .flag])]

/-- The parameters of an introduction. -/
def introductionForm : Form :=
  .parameters [.required "protocolVersion" .text, .required "capabilities" abilitiesForm,
    .required "clientInfo" agentForm]

/-- The parameters of a call of a tool. -/
def callForm : Form :=
  .parameters [.required "name" .text, .optional "arguments" .object]

/-- The parameters of a reading. -/
def readingForm : Form :=
  .parameters [.required "uri" .text]

/-- The parameters of a listing, which may be missing. -/
def listingForm (parameters : Option Json) : Bool :=
  parameters.all fun value => value.isNull || Form.parameters [] value

/-- What completes a resource. -/
def resourceFields : List Field :=
  [.required "uri" .text]

/-- What completes a prompt. -/
def promptFields : List Field :=
  [.required "name" .text, .optional "title" .text]

/-- The fields of the kind of thing that a tag names. -/
def fieldsOfTag? : Json → Option (List Field)
  | .str "ref/resource" | .num (.int 0) => some resourceFields
  | .str "ref/prompt" | .num (.int 1) => some promptFields
  | _ => none

/-- The thing that is completed: a record of the kind that its tag names. In an
array the tag comes first. -/
def completedForm : Form
  | .arr (tag :: rest) => (fieldsOfTag? tag).any fun fields => Form.inOrder fields (.arr rest)
  | .obj members =>
    ((lookup members "type").bind fieldsOfTag?).any fun fields =>
      Form.members fields (.obj members)
  | _ => false

/-- The parameters of a completion. -/
def completionForm : Form :=
  .parameters [.required "ref" completedForm,
    .required "argument" (.record [.required "name" .text, .required "value" .text]),
    .optional "context" (.record [.optional "arguments" (.table .text)])]

end ContextDb.Bridge
