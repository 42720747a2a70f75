/-!
# Failed calls

Why a call of an agent gives no answer, and how that is reported: a code and a
message.
-/

namespace ContextDb.Bridge

/-- Why a call fails. -/
inductive Failure where
  | unknownTool (name : String)
  | unknownResource (address : String)
  | missingPathParameter (name : String)
  | missingQueryParameter (name : String)
  | targetTooLong
  | replyTooLong
  /-- a resource cannot be read: the status and the text of the reply -/
  | refused (status : Nat) (text : String)
  deriving DecidableEq, Repr

namespace Failure

/-- The code for parameters with which nothing can be called. -/
def invalidParameters : Int := -32602

/-- The code for resources that do not exist. -/
def resourceNotFound : Int := -32002

/-- The code for failures that the caller cannot mend. -/
def internalError : Int := -32603

/-- The code under which a refused reading is reported. -/
def codeOfStatus (status : Nat) : Int :=
  if status = 404 then resourceNotFound
  else if 400 ≤ status && status < 500 then invalidParameters
  else internalError

/-- The code of a failure. -/
def code : Failure → Int
  | unknownTool _ | missingPathParameter _ | missingQueryParameter _ => invalidParameters
  | unknownResource _ => resourceNotFound
  | targetTooLong | replyTooLong => internalError
  | refused status _ => codeOfStatus status

/-- The message of a failure. -/
def message : Failure → String
  | unknownTool name => "unknown tool '" ++ name ++ "'"
  | unknownResource address => "unknown resource '" ++ address ++ "'"
  | missingPathParameter name => "missing path parameter '" ++ name ++ "'"
  | missingQueryParameter name => "missing query parameter '" ++ name ++ "'"
  | targetTooLong => "invalid request: uri too long"
  | replyTooLong => "failed to read response: length limit exceeded"
  | refused _ text => text

end Failure

end ContextDb.Bridge
