import ContextDb.Config.Basic
import ContextDb.Rest.Service

/-!
# The mount path

Where the operations for agents are found: the mount path, the same with a
slash, and everything below. A route must be well formed, and a path is never
claimed by two routes.
-/

namespace ContextDb.Server

open Text

/-- A pattern of paths. -/
inductive Route where
  /-- this path -/
  | exact (path : String)
  /-- all paths that continue this one -/
  | below (base : String)
  deriving DecidableEq, Repr

/-- Whether a path follows a pattern. -/
def Route.accepts (path : String) : Route → Bool
  | .exact wanted => path = wanted
  | .below base =>
    match dropPrefix? base.toList path.toList with
    | some (_ :: _) => true
    | _ => false

/-- The pattern as it is registered. -/
def Route.text : Route → String
  | .exact path => path
  | .below base => base ++ "\x7b*rest\x7d"

/-- The fixed part of a pattern. -/
def Route.base : Route → String
  | .exact path => path
  | .below base => base

/-- Whether a segment of a route would be taken for the old form of a capture. -/
def looksLikeCapture (segment : List Char) : Bool :=
  segment.head? = some ':' || segment.head? = some '*'

/-- Whether the fixed part of a route can be registered: it begins with a slash,
none of its segments looks like a capture, and it has no braces. -/
def isRoutable (base : String) : Bool :=
  base.toList.head? = some '/' &&
    !(pieces '/' base.toList).any looksLikeCapture &&
    !base.toList.any fun c => c = '\x7b' || c = '\x7d'

/-- The routes of the operations for agents. -/
def mountRoutes (config : Config) : List Route :=
  let mount := config.mountPath
  [.exact mount, .exact (mount ++ "/"), .below (mount ++ "/")]

/-- The paths of the documentation: the description, and the pages about it. -/
def documentPath : String := "/api/openapi.json"

/-- Where the pages about the interface are. -/
def pagesPath : String := "/api/docs"

/-- The routes of the pages. -/
def pageRoutes : List Route :=
  [.exact pagesPath, .exact (pagesPath ++ "/"), .below (pagesPath ++ "/")]

/-- Whether a path belongs to the REST interface or its documentation. -/
def isOwnPath (path : String) : Bool :=
  !(Rest.endpointsAt path).isEmpty || path = documentPath ||
    pageRoutes.any (Route.accepts path)

/-- Whether the routes for agents can be registered beside all others. -/
def canMount (config : Config) : Bool :=
  (mountRoutes config).all fun route => isRoutable route.base && !isOwnPath route.base

end ContextDb.Server
