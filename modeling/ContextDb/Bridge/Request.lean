import ContextDb.Bridge.Failure
import ContextDb.Capability.Action
import ContextDb.Http.Message
import ContextDb.Http.Target
import ContextDb.Url.Form
import ContextDb.Url.Path

/-!
# From arguments to requests

The request that an action makes of its arguments. The path takes those that its
placeholders name, the query those of its parameters, and the body what is left.
Each argument is used up where it is taken.
-/

namespace ContextDb.Bridge

open Capability Http Text Url

/-- Arguments by their names. -/
abbrev Arguments := SortedMap Json

/-- A value as it stands in a path or a query: a text as it is, anything else in
JSON. -/
def argumentText : Json → String
  | .str text => text
  | other => other.render

/-- The name in a segment that is a placeholder. -/
def placeholder? : List Char → Option String
  | '\x7b' :: rest =>
    if rest.getLast? = some '\x7d' then some (String.ofList rest.dropLast) else none
  | _ => none

/-- The segments of the path of an action. Empty ones do not count. -/
def pathSegments (action : Action) : List (List Char) :=
  (pieces '/' action.path.toList).filter (!·.isEmpty)

/-- Add segments to a path, with arguments in the place of placeholders. The
arguments that are left come with the path. -/
def fillPath (path : List Char) (arguments : Arguments) :
    List (List Char) → Except Failure (List Char × Arguments)
  | [] => .ok (path, arguments)
  | segment :: rest =>
    match placeholder? segment with
    | none => fillPath (pushSegment path segment) arguments rest
    | some name =>
      match arguments.get? name with
      | none => .error (.missingPathParameter name)
      | some value =>
        fillPath (pushSegment path (argumentText value).toList) (arguments.erase name) rest

/-- The parameters of an action that are passed in the query. -/
def queryParameters (action : Action) : List Parameter :=
  action.parameters.filter (·.location = .query)

/-- The pairs of a query that an argument gives: one for each element of an array,
none for null, and otherwise one. -/
def pairsOf (name : String) : Option Json → List (String × String)
  | none | some .null => []
  | some (.arr items) => items.map fun item => (name, argumentText item)
  | some value => [(name, argumentText value)]

/-- Whether an argument is missing where it is required. -/
def isMissing (parameter : Parameter) (value : Option Json) : Bool :=
  parameter.required && value.all Json.isNull

/-- The pairs of a query in the order of its parameters, and the arguments that are
left. -/
def fillQuery (arguments : Arguments) :
    List Parameter → Except Failure (List (String × String) × Arguments)
  | [] => .ok ([], arguments)
  | parameter :: rest =>
    let value := arguments.get? parameter.name
    if isMissing parameter value then .error (.missingQueryParameter parameter.name)
    else do
      let (pairs, left) ← fillQuery (arguments.erase parameter.name) rest
      return (pairsOf parameter.name value ++ pairs, left)

/-- The body that an action makes of the arguments that are left. -/
def bodyOf (action : Action) (left : Arguments) : Option Json :=
  if action.bodySchema.isNone then none
  else if action.isFlattened then some (.obj left.toList)
  else some ((left.get? "body").getD .null)

/-- The request for a target with a body, which is always JSON. -/
def requestFor (method : String) (target : Target) (body : Option Json) : Request where
  method := method
  path := target.path
  query := target.query
  headers := if body.isSome then [header "content-type" "application/json"] else []
  body := (body.map fun value => value.render.toUTF8).getD ByteArray.empty

/-- The request that an action makes of arguments. -/
def buildRequest (action : Action) (arguments : Arguments) : Except Failure Request := do
  let (path, left) ← fillPath ['/'] arguments (pathSegments action)
  let (pairs, left) ← fillQuery left (queryParameters action)
  let query := if pairs.isEmpty then none else some (formEncode pairs)
  let target : Target := ⟨String.ofList path, query⟩
  if maxTargetBytes < target.size then .error .targetTooLong
  else return requestFor action.method target (bodyOf action left)

end ContextDb.Bridge
