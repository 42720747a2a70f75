import ContextDb.Json.Reader
import ContextDb.Json.References
import ContextDb.Text.White

/-!
# Actions

The operations that an OpenAPI document describes, as far as they matter to
agents: how they are called, what they are called with and how they are
described. What is malformed in a document is left out, and nothing else with
it.
-/

namespace ContextDb.Capability

open Json Text

/-- Where a parameter is passed. -/
inductive Location where
  | path
  | query
  deriving DecidableEq, Repr

/-- The name of a place where parameters are passed. -/
def Location.name : Location → String
  | .path => "path"
  | .query => "query"

/-- A parameter of an action. -/
structure Parameter where
  name : String
  location : Location
  required : Bool
  schema : Json

/-- An operation of a described interface. -/
structure Action where
  method : String
  path : String
  id : String
  tags : List String
  summary : Option String
  description : Option String
  parameters : List Parameter
  /-- the schema of the body, with references replaced -/
  bodySchema : Option Json

/-- The keys of methods in a document, with their names in requests, in the order
in which they are listed. -/
def describedMethods : List (String × String) :=
  [("get", "GET"), ("post", "POST"), ("put", "PUT"), ("patch", "PATCH"), ("delete", "DELETE")]

/-- The schema of a parameter that states none. -/
def plainSchema : Json :=
  .obj [("type", .str "string")]

/-- A schema with a description, unless it has one. -/
def withDescription (description : Json) : Json → Json
  | .obj members =>
    if (lookup members "description").isSome then .obj members
    else .obj (SortedMap.place "description" description members)
  | other => other

/-- A parameter with a name and a place, from its description. -/
def parameterOf? (document value : Json) : Option Parameter := do
  let described := resolve document value
  let place ← (← described.get? "in").text?
  let location ← [Location.path, .query].find? (·.name = place)
  let name ← (← described.get? "name").text?
  let plain := (described.get? "schema").getD plainSchema
  let schema := match described.get? "description" with
    | some description => withDescription description plain
    | none => plain
  let required :=
    location = .path || ((described.get? "required").bind flag?).getD false
  return { name, location, required, schema }

/-- The name of an action that the document does not name: its method and the
segments of its path. -/
def fallbackId (method path : String) : String :=
  let segments := (pieces '/' path.toList).filter (!·.isEmpty)
  let names := segments.map (trimBy fun c => c = '\x7b' || c = '\x7d')
  String.ofList (method.toList.map Char.toLower ++ ['_'] ++ joinWith ['_'] names)

/-- The pointer to the schema of a body. -/
def bodyPointer : List Char :=
  "/requestBody/content/application~1json/schema".toList

/-- The action that a part of a document describes. -/
def Action.ofJson (document : Json) (path method : String) (value : Json) : Action where
  method := method
  path := path
  id := ((value.get? "operationId").bind text?).getD (fallbackId method path)
  tags := (((value.get? "tags").bind items?).getD []).filterMap text?
  summary := (value.get? "summary").bind text?
  description := (value.get? "description").bind text?
  parameters :=
    (((value.get? "parameters").bind items?).getD []).filterMap (parameterOf? document)
  bodySchema := (value.pointer? bodyPointer).map (resolve document)

/-- The actions at one path of a document. -/
def actionsAt (document : Json) (path : String) (item : Json) : List Action :=
  describedMethods.filterMap fun (key, method) =>
    (item.get? key).map (Action.ofJson document path method)

/-- All actions of a document, by path and then by method. -/
def actions (document : Json) : List Action :=
  (((document.get? "paths").bind members?).getD []).flatMap fun (path, item) =>
    actionsAt document path item

namespace Action

/-- The properties of a body that is an object. -/
def bodyProperties? (action : Action) : Option (List (String × Json)) :=
  (action.bodySchema.bind (·.get? "properties")).bind members?

/-- Whether the properties of the body are arguments of their own, so that the
body is not an argument itself. -/
def isFlattened (action : Action) : Bool :=
  action.bodyProperties?.isSome

/-- The text that describes an action to an agent. -/
def describe (action : Action) : String :=
  let text := match action.summary, action.description with
    | some summary, some description =>
      if summary = description then summary else summary ++ "\n\n" ++ description
    | some summary, none => summary
    | none, some description => description
    | none, none => action.id
  text ++ "\n\nHTTP: " ++ action.method ++ " " ++ action.path

/-- The arguments that the body asks for, and which of them it needs. -/
def bodyArguments (action : Action) : List (String × Json) × List Json :=
  match action.bodySchema, action.bodyProperties? with
  | none, _ => ([], [])
  | some schema, some properties =>
    (properties, ((schema.get? "required").bind items?).getD [])
  | some schema, none => ([("body", schema)], [.str "body"])

/-- The schema of the arguments of an action: its parameters and its body. -/
def inputSchema (action : Action) : Json :=
  let (bodyProperties, bodyRequired) := action.bodyArguments
  let properties :=
    action.parameters.map (fun parameter => (parameter.name, parameter.schema)) ++ bodyProperties
  let required :=
    ((action.parameters.filter (·.required)).map fun parameter => Json.str parameter.name) ++
      bodyRequired
  .obj ([("properties", .obj (canonicalMembers properties))] ++
    (if required.isEmpty then [] else [("required", .arr required)]) ++
    [("type", .str "object")])

/-- What stands before the name of an action in its address. -/
def addressPrefix : String := "resource://openviking/"

/-- The address of an action that is read. -/
def address (action : Action) : String :=
  addressPrefix ++ action.id

end Action

end ContextDb.Capability
