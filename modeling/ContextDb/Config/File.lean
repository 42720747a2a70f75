import ContextDb.Config.Environment
import ContextDb.Config.Setting
import ContextDb.Toml.Document

/-!
# Configuration files

A configuration is loaded from the file that is named on the command line or in
the environment, or from the one in the home directory if it is there. The
environment then overrides what the file says.
-/

namespace ContextDb.Config

open Text

/-- The setting that a TOML value stands for. -/
def Setting.ofToml : Toml.Node → Setting
  | .text value => .text value
  | .integer value => .integer value
  | .flag value => .flag value
  | .array items => .list (items.map fun item =>
      match item with
      | .text value => .text value
      | _ => .other)
  | .tables .. => .list [.other]
  | .scalar | .table .. => .other

/-- The configuration that a TOML text states. -/
def ofToml (text : String) : Except Error Config :=
  match Toml.read? text with
  | none => .error (.toml "TOML parse error: malformed document")
  | some members =>
    (ofSettings fun name => (members.get? name).map .ofToml).mapError fun name =>
      .toml ("TOML parse error: unusable setting " ++ name)

/-- What stands at a path. -/
inductive PathContent where
  | file (bytes : List UInt8)
  | directory

/-- What stands at each path, if anything does. -/
abbrev Files := String → Option PathContent

/-- The configuration that stands at a path. A directory cannot be read. -/
def ofPathContent : PathContent → Except Error Config
  | .directory => .error (.io "Is a directory (os error 21)")
  | .file bytes =>
    match decode? bytes with
    | none => .error (.io "stream did not contain valid UTF-8")
    | some text => ofToml text

/-- The variable that names the configuration file. -/
def fileVariable : String := "OPENVIKING_CONFIG"

/-- The names of all variables that are looked up. -/
def variableNames : List String :=
  fileVariable :: Variable.all.map Variable.name

/-- Where the configuration file is below the home directory. -/
def homeFile : String := "/.openviking/server.toml"

/-- The configuration before the environment overrides it. Something must stand at
a path that is named. -/
def loadFile (path : Option String) (environment : Environment) (files : Files)
    (defaultFile : Option PathContent) : Except Error Config :=
  match path.orElse fun _ => environment fileVariable with
  | some path =>
    match files path with
    | none => .error (.config ("config file not found: " ++ path))
    | some content => ofPathContent content
  | none =>
    match defaultFile with
    | none => .ok default
    | some content => ofPathContent content

/-- Load the configuration from a file that may be named, and from the
environment. -/
def load (path : Option String) (environment : Environment) (files : Files)
    (defaultFile : Option PathContent) : Except Error Config := do
  let config ← loadFile path environment files defaultFile
  config.applyEnvironment environment

end ContextDb.Config
