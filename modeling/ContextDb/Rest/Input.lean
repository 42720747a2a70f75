import ContextDb.Http.MediaType
import ContextDb.Http.Message
import ContextDb.Json.Fitting
import ContextDb.Url.Form
import ContextDb.Uuid

/-!
# Reading requests

The query, the body and the captured parts of the path of a request, read
against what the endpoint expects. All that is refused is refused as an invalid
argument with its reason.
-/

namespace ContextDb.Rest

open Json Http Text

/-- Why a request is refused. -/
inductive Rejection where
  | mediaType
  | tooLarge
  | malformedBody
  | body (reason : String)
  | query (reason : String)
  | path (reason : String)

/-- The reason in words. -/
def Rejection.message : Rejection → String
  | .mediaType => "Expected request with `Content-Type: application/json`"
  | .tooLarge => "Failed to buffer the request body: length limit exceeded"
  | .malformedBody => "Failed to parse the request body as JSON"
  | .body reason => "Failed to deserialize the JSON body into the target type: " ++ reason
  | .query reason => "Failed to deserialize query string: " ++ reason
  | .path reason => "Invalid URL: " ++ reason

/-- The error under which a refusal is answered. -/
def Rejection.error (rejection : Rejection) : Error :=
  .invalidArgument rejection.message

/-- The greatest length of a body in bytes. -/
def maxBodyBytes : Nat := 2097152

/-- A reason with the place it applies to. -/
def atPlace (place : List Step) (reason : String) : String :=
  if place.isEmpty then reason else renderPlace place ++ ": " ++ reason

/-- Read the body of a request. -/
def readBody (shape : Shape) (request : Request) : Except Rejection shape.Value :=
  if !(request.headers.get? "content-type").any isJsonType then .error .mediaType
  else if maxBodyBytes < request.body.size then .error .tooLarge
  else
    match shape.readAll request.body.data.toList with
    | .ok value => .ok value
    | .error .malformed => .error .malformedBody
    | .error (.unexpected place reason) => .error (.body (atPlace place reason))

/-- The value of a shape that a text of a query stands for, or why it stands for
none. -/
def valueOfText : (shape : Shape) → String → Except String shape.Value
  | .text, text => .ok text
  | .flag, text =>
    if text = "true" then .ok true
    else if text = "false" then .ok false
    else .error "provided string was not `true` or `false`"
  | .count, text =>
    match text.toNat? with
    | some value => .ok value
    | none => .error "invalid digit found in string"
  | .optional inner, text => (valueOfText inner text).map some
  | .list item, text => .error (wrongType ("string " ++ quoted text) (Shape.list item).wanted)
  | .record name fields, text =>
    .error (wrongType ("string " ++ quoted text) (Shape.record name fields).wanted)

/-- Fill the field with a given name from a text of a query. Other names are
ignored. -/
def takeText : (fields : Fields) → fields.Slots → (key text : String) →
    Except String fields.Slots
  | .done, slots, _, _ => .ok slots
  | .field name _ shape others, (slot, slots), key, text =>
    if name = key then
      if slot.isSome then .error ("duplicate field " ++ ticked name)
      else
        match valueOfText shape text with
        | .ok value => .ok (some value, slots)
        | .error reason => .error (name ++ ": " ++ reason)
    else (takeText others slots key text).map fun slots => (slot, slots)

/-- The values of fields from the pairs of a query. -/
def readPairs (fields : Fields) (pairs : List (String × String)) :
    Except Rejection fields.Values :=
  let filled := pairs.foldlM (fun slots (key, text) => takeText fields slots key text)
    fields.unknown
  match filled with
  | .error reason => .error (.query reason)
  | .ok slots =>
    match fields.complete slots with
    | .ok values => .ok values
    | .error missing => .error (.query ("missing field " ++ ticked missing))

/-- Read the query of a request. -/
def readQuery (fields : Fields) (request : Request) : Except Rejection fields.Values :=
  readPairs fields (Url.formDecode (request.query.getD ""))

/-- Read a session identifier that has been captured from a path under a name. -/
def readId (name captured : String) : Except Rejection Uuid :=
  match decode? (Url.unescape (bytesOf captured)) with
  | none => .error (.path ("Invalid UTF-8 in " ++ ticked name))
  | some text =>
    match Uuid.ofText? text with
    | some id => .ok id
    | none =>
      .error (.path ("Cannot parse " ++ ticked name ++ " with value " ++ ticked text ++
        ": UUID parsing failed"))

end ContextDb.Rest
