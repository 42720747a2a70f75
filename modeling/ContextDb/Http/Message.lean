import ContextDb.Error
import ContextDb.Http.Token
import ContextDb.Json.Printer

/-!
# Requests and responses

HTTP messages as the service sees them. Header names are kept in lower case and
header values and bodies are bytes.
-/

namespace ContextDb.Http

/-- The headers of a message in their order. A name may occur more than once. -/
abbrev Headers := List (String × List UInt8)

/-- The first value of a header. -/
def Headers.get? (headers : Headers) (name : String) : Option (List UInt8) :=
  (headers.find? (·.1 = name)).map (·.2)

/-- All values of a header. -/
def Headers.values (headers : Headers) (name : String) : List (List UInt8) :=
  (headers.filter (·.1 = name)).map (·.2)

/-- Headers with one of them set, in place of all that have its name. -/
def Headers.put (headers : Headers) (set : String × List UInt8) : Headers :=
  headers.filter (·.1 ≠ set.1) ++ [set]

/-- A request whose target has been split into its path and its query. -/
structure Request where
  method : String
  path : String
  query : Option String
  headers : Headers
  body : ByteArray

/-- Whether a request can be sent as it is. -/
def Request.isWellFormed (request : Request) : Bool :=
  isName request.method &&
    request.headers.all fun (name, value) => isName name && isHeaderValue value

/-- A response. -/
structure Response where
  status : Nat
  headers : Headers
  body : ByteArray

/-- A header with a text as its value. -/
def header (name value : String) : String × List UInt8 :=
  (name, value.toUTF8.data.toList)

/-- A response without a body. -/
def Response.empty (status : Nat) (headers : Headers) : Response :=
  ⟨status, headers, ByteArray.empty⟩

/-- A response whose body is a JSON text. -/
def Response.ofJson (status : Nat) (body : Json) : Response :=
  ⟨status, [header "content-type" "application/json"], body.render.toUTF8⟩

/-- The body of a successful answer. -/
def okBody (result : Json) : Json :=
  .obj [("status", .str "ok"), ("result", result)]

/-- The body of an answer that reports a failure. -/
def errorBody (code message : String) : Json :=
  .obj [("status", .str "error"),
    ("error", .obj [("code", .str code), ("message", .str message)])]

/-- The answer that reports a failure under a code. -/
def Response.failure (code message : String) : Response :=
  .ofJson (Error.statusOf code) (errorBody code message)

/-- The answer that reports an error. -/
def Response.ofError (error : Error) : Response :=
  .failure error.code.name error.message

/-- What a handler may have said when it broke off. -/
inductive Panic where
  | text (message : String)
  | other

/-- The answer for a handler that broke off. -/
def Response.ofPanic : Panic → Response
  | .text message => .failure Error.Code.internal.name message
  | .other => .failure Error.Code.internal.name "unknown panic"

end ContextDb.Http
