import ContextDb.Error
import ContextDb.Text.Bytes
import ContextDb.Text.White

/-!
# Configuration

What the server is told when it starts: where to listen, which origins may call
it, and whether, where and with which key its operations are offered to agents.
A configuration is valid if the mount path for agents is a route of its own.
-/

namespace ContextDb

open Text

/-- The settings of a server. -/
structure Config where
  host : String
  port : UInt16
  apiKey : Option String
  corsOrigins : List String
  enableMcp : Bool
  mcpPath : String
  deriving DecidableEq, Repr

namespace Config

/-- Where operations are mounted for agents if nothing else is said. -/
def defaultMcpPath : String := "/mcp"

/-- The settings that hold if nothing else is said. -/
def default : Config where
  host := "127.0.0.1"
  port := 1933
  apiKey := none
  corsOrigins := ["*"]
  enableMcp := true
  mcpPath := defaultMcpPath

/-- The first parts of all routes of the REST interface and its documentation. -/
def reservedPrefixes : List String := ["/health", "/api"]

/-- The secret that guards the mount path; an empty one is none. -/
def secret (config : Config) : Option String :=
  config.apiKey.filter fun key => !key.isEmpty

/-- A path without trailing slashes, or the default one if nothing is left. -/
def mountOf (path : String) : String :=
  let trimmed := trimEndBy (· == '/') path.toList
  if trimmed.isEmpty then defaultMcpPath else String.ofList trimmed

/-- Where operations are mounted for agents. -/
def mountPath (config : Config) : String :=
  mountOf config.mcpPath

/-- The address to listen on. -/
def bindAddress (config : Config) : String :=
  config.host ++ ":" ++ Nat.repr config.port.toNat

/-- Whether a path is another path or lies below it. -/
def isAtOrBelow (path base : String) : Bool :=
  path = base ||
    match dropPrefix? base.toList path.toList with
    | some (next :: _) => next == '/'
    | _ => false

/-- Characters with a meaning of their own in a route or a request target. -/
def isRouteSpecial (c : Char) : Bool :=
  ['\x7b', '\x7d', '*', '?', '#'].contains c || isWhite c

/-- Refuse a mount path that is no route or that hides routes of the REST
interface. Without agents nothing is mounted and every path is fine. -/
def validate (config : Config) : Except Error Unit :=
  let mount := config.mountPath
  if !config.enableMcp then .ok ()
  else if mount.toList.head? ≠ some '/' then
    .error (.config ("mcp_path must start with '/': " ++ config.mcpPath))
  else if mount.toList.any isRouteSpecial then
    .error (.config ("mcp_path contains characters not allowed in a route: " ++ config.mcpPath))
  else
    match reservedPrefixes.find? fun taken =>
        isAtOrBelow mount taken || isAtOrBelow taken mount with
    | some taken =>
      .error (.config ("mcp_path " ++ mount ++ " overlaps the REST routes under " ++ taken))
    | none => .ok ()

end Config

end ContextDb
