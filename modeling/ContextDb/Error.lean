/-!
# Errors

Everything that can go wrong in the service, what it is called in an answer,
which status it has there and how it is worded.
-/

namespace ContextDb

/-- A failure together with what it is about. -/
inductive Error where
  | notFound (what : String)
  | alreadyExists (what : String)
  | invalidArgument (reason : String)
  | invalidUri (reason : String)
  | failedPrecondition (reason : String)
  | unauthenticated (reason : String)
  | config (reason : String)
  | io (reason : String)
  | json (reason : String)
  | toml (reason : String)
  | internal (reason : String)
  deriving DecidableEq, Repr

namespace Error

/-- The machine-readable codes of error answers. -/
inductive Code where
  | invalidArgument
  | invalidUri
  | notFound
  | alreadyExists
  | unauthenticated
  | permissionDenied
  | failedPrecondition
  | internal
  deriving DecidableEq, Repr

namespace Code

/-- Every code. -/
def all : List Code :=
  [.invalidArgument, .invalidUri, .notFound, .alreadyExists, .unauthenticated, .permissionDenied,
    .failedPrecondition, .internal]

/-- The name of a code in an answer. -/
def name : Code → String
  | .invalidArgument => "INVALID_ARGUMENT"
  | .invalidUri => "INVALID_URI"
  | .notFound => "NOT_FOUND"
  | .alreadyExists => "ALREADY_EXISTS"
  | .unauthenticated => "UNAUTHENTICATED"
  | .permissionDenied => "PERMISSION_DENIED"
  | .failedPrecondition => "FAILED_PRECONDITION"
  | .internal => "INTERNAL"

/-- The HTTP status of a code. -/
def status : Code → Nat
  | .invalidArgument | .invalidUri => 400
  | .notFound => 404
  | .alreadyExists => 409
  | .unauthenticated => 401
  | .permissionDenied => 403
  | .failedPrecondition => 412
  | .internal => 500

/-- The code with a given name. -/
def ofName? (name : String) : Option Code :=
  all.find? (·.name = name)

end Code

/-- The HTTP status of the code with a given name. A name that is no code stands
for a failure of the server. -/
def statusOf (name : String) : Nat :=
  ((Code.ofName? name).getD .internal).status

/-- The code under which an error is answered. -/
def code : Error → Code
  | .notFound _ => .notFound
  | .alreadyExists _ => .alreadyExists
  | .invalidArgument _ => .invalidArgument
  | .invalidUri _ => .invalidUri
  | .failedPrecondition _ => .failedPrecondition
  | .unauthenticated _ => .unauthenticated
  | .config _ | .io _ | .json _ | .toml _ | .internal _ => .internal

/-- The HTTP status of an error. -/
def status (error : Error) : Nat :=
  error.code.status

/-- The text that describes an error to a person. -/
def message : Error → String
  | .notFound what => "Not found: " ++ what
  | .alreadyExists what => "Already exists: " ++ what
  | .invalidArgument reason => "Invalid argument: " ++ reason
  | .invalidUri reason => "Invalid URI: " ++ reason
  | .failedPrecondition reason => "Failed precondition: " ++ reason
  | .unauthenticated reason => reason
  | .config reason => "Config error: " ++ reason
  | .io reason => "IO error: " ++ reason
  | .json reason => "JSON error: " ++ reason
  | .toml reason => "TOML error: " ++ reason
  | .internal reason => reason

end Error

end ContextDb
