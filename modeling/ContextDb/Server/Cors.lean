import ContextDb.Config.Basic
import ContextDb.Http.Message

/-!
# Calls from other origins

Every response says which origins may use it. Requests that only ask what is
allowed are answered here and go no further.
-/

namespace ContextDb.Server

open Http Text

/-- The origins that are allowed. -/
inductive Origins where
  /-- whichever asks -/
  | any
  /-- those with one of these values -/
  | listed (values : List (List UInt8))

/-- The origins that a configuration allows. What cannot be the value of a header
is no origin. -/
def Origins.ofConfig (config : Config) : Origins :=
  if config.corsOrigins.contains "*" then .any
  else .listed ((config.corsOrigins.map bytesOf).filter isHeaderValue)

/-- Whether an origin is allowed. -/
def Origins.allows (origins : Origins) (origin : List UInt8) : Bool :=
  match origins with
  | .any => true
  | .listed values => values.contains origin

/-- The headers on which the answer depends. -/
def varied : String :=
  "origin, access-control-request-method, access-control-request-headers"

/-- A header that gives the value of a header of the request back. -/
def echoed (request : Headers) (asked answered : String) : Headers :=
  match request.get? asked with
  | some value => [(answered, value)]
  | none => []

/-- The headers that every response gets. -/
def Origins.headers (origins : Origins) (request : Headers) : Headers :=
  [header "vary" varied, header "access-control-allow-credentials" "true"] ++
    match (request.get? "origin").filter origins.allows with
    | some origin => [("access-control-allow-origin", origin)]
    | none => []

/-- The headers of the answer to a request that asks what is allowed. -/
def Origins.preflight (origins : Origins) (request : Headers) : Headers :=
  origins.headers request ++
    echoed request "access-control-request-method" "access-control-allow-methods" ++
    echoed request "access-control-request-headers" "access-control-allow-headers"

end ContextDb.Server
