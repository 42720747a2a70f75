import ContextDb.Config.Basic
import ContextDb.Json.Basic

/-!
# Settings by name

A configuration is read from named settings, whatever format they are written
in. Settings that are not given keep their defaults, unknown ones are ignored,
and one of the wrong kind is refused.
-/

namespace ContextDb.Config

/-- The value of a setting. -/
inductive Setting where
  | text (value : String)
  | integer (value : Int)
  | flag (value : Bool)
  | list (items : List Setting)
  /-- explicitly nothing -/
  | empty
  /-- a kind of value that no setting has -/
  | other

/-- A setting given by name, or nothing; the reason why it is refused. -/
abbrev Settings := String → Option Setting

/-- A text. -/
def Setting.text? : Setting → Option String
  | .text value => some value
  | _ => none

/-- A truth value. -/
def Setting.flag? : Setting → Option Bool
  | .flag value => some value
  | _ => none

/-- A port number. -/
def Setting.port? : Setting → Option UInt16
  | .integer value => if 0 ≤ value && value < 65536 then some value.toNat.toUInt16 else none
  | _ => none

/-- A text, or explicitly none. -/
def Setting.optionalText? : Setting → Option (Option String)
  | .text value => some (some value)
  | .empty => some none
  | _ => none

/-- A list of texts. -/
def Setting.texts? : Setting → Option (List String)
  | .list items => items.mapM Setting.text?
  | _ => none

/-- The value of a setting, or its default if it is not given. -/
def setting {α : Type} (settings : Settings) (name : String) (read : Setting → Option α)
    (default : α) : Except String α :=
  match settings name with
  | none => .ok default
  | some value =>
    match read value with
    | some value => .ok value
    | none => .error name

/-- The configuration with the given settings, or the name of one that is
refused. -/
def ofSettings (settings : Settings) : Except String Config := do
  let host ← setting settings "host" Setting.text? default.host
  let port ← setting settings "port" Setting.port? default.port
  let apiKey ← setting settings "api_key" Setting.optionalText? default.apiKey
  let corsOrigins ← setting settings "cors_origins" Setting.texts? default.corsOrigins
  let enableMcp ← setting settings "enable_mcp" Setting.flag? default.enableMcp
  let mcpPath ← setting settings "mcp_path" Setting.text? default.mcpPath
  return { host, port, apiKey, corsOrigins, enableMcp, mcpPath }

/-- The names of the settings in their order. -/
def settingNames : List String :=
  ["host", "port", "api_key", "cors_origins", "enable_mcp", "mcp_path"]

/-- The setting that a JSON value stands for. -/
def Setting.ofJson : Json → Setting
  | .str value => .text value
  | .num (.int value) => .integer value
  | .bool value => .flag value
  | .arr items => .list (items.map fun item =>
      match item with
      | .str value => .text value
      | _ => .other)
  | .null => .empty
  | _ => .other

/-- The configuration written as a JSON object, or as an array of its leading
settings. -/
def ofJson (value : Json) : Except Error Config :=
  let refused (reason : String) : Error := .json ("unusable setting: " ++ reason)
  match value with
  | .obj members => (ofSettings fun name => (Json.lookup members name).map .ofJson).mapError refused
  | .arr items =>
    if settingNames.length < items.length then .error (refused "too many settings")
    else
      let named := settingNames.zip items
      (ofSettings fun name => (Json.lookup named name).map .ofJson).mapError refused
  | _ => .error (refused "not a configuration")

end ContextDb.Config
