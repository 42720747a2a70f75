import ContextDb.Config.Basic
import ContextDb.Digest
import ContextDb.Http.Message

/-!
# The gate

A shared secret guards the path under which operations are offered to agents.
The gate lets a request pass if there is no secret, if the request goes elsewhere
or if it presents the secret.
-/

namespace ContextDb

open Text Http

/-- What is guarded, and by which secret. Without a secret everything passes. -/
structure Gate where
  mountPath : String
  secret : Option String
  deriving DecidableEq, Repr

namespace Gate

/-- The gate in front of a mount path. It is open unless it is enabled and has a
secret that is not empty. -/
def make (enabled : Bool) (secret : Option String) (path : String) : Gate where
  mountPath := Config.mountOf path
  secret := secret.filter fun key => enabled && !key.isEmpty

/-- The gate that a configuration asks for. -/
def ofConfig (config : Config) : Gate :=
  make config.enableMcp config.secret config.mountPath

/-- Whether the gate has a secret to ask for. -/
def isActive (gate : Gate) : Bool :=
  gate.secret.isSome

/-- Whether a path lies behind the gate: the mount path and all below it. -/
def protects (gate : Gate) (path : String) : Bool :=
  Config.isAtOrBelow path gate.mountPath

/-- The bytes after the word that introduces a bearer credential. -/
def bearer? (value : List UInt8) : Option (List UInt8) :=
  let introduction := bytesOf "Bearer "
  if introduction.isPrefixOf value then some (value.drop introduction.length) else none

/-- The credential of a request: its key header, or else its bearer credential.
An empty credential is none. -/
def presented? (headers : Headers) : Option (List UInt8) :=
  ((headers.get? "x-api-key").filter (!·.isEmpty)).orElse fun _ =>
    ((headers.get? "authorization").bind bearer?).filter (!·.isEmpty)

/-- Whether two secrets are the same. Their digests are compared, and to the end, so
that the time it takes does not tell where or whether they differ. -/
def sameSecret (first second : List UInt8) : Bool :=
  let differences := List.zipWith (· ^^^ ·) (Digest.digest first) (Digest.digest second)
  differences.foldl (· ||| ·) 0 == 0

/-- Let a request pass, or say why not. -/
def check (gate : Gate) (path : String) (headers : Headers) : Except Error Unit :=
  match gate.secret with
  | none => .ok ()
  | some secret =>
    let passes := !gate.protects path ||
      (presented? headers).any fun key => sameSecret key (bytesOf secret)
    if passes then .ok () else .error (.unauthenticated "Invalid API Key")

end Gate

end ContextDb
