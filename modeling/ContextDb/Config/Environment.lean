import ContextDb.Config.Basic
import ContextDb.Text.Split

/-!
# Settings from the environment

Variables of the environment override the settings of a configuration.
-/

namespace ContextDb.Config

open Text

/-- The environment: the value of a variable, if it is set. -/
abbrev Environment := String → Option String

/-- A variable that overrides a setting. -/
inductive Variable where
  | host
  | port
  | apiKey
  | corsOrigins
  | enableMcp
  | mcpPath
  deriving DecidableEq, Repr

namespace Variable

/-- The name of a variable. -/
def name : Variable → String
  | host => "OPENVIKING_HOST"
  | port => "OPENVIKING_PORT"
  | apiKey => "OPENVIKING_API_KEY"
  | corsOrigins => "OPENVIKING_CORS_ORIGINS"
  | enableMcp => "OPENVIKING_ENABLE_MCP"
  | mcpPath => "OPENVIKING_MCP_PATH"

/-- Every variable. -/
def all : List Variable :=
  [host, port, apiKey, corsOrigins, enableMcp, mcpPath]

end Variable

/-- A number below 65536 in decimal digits, which a plus sign may precede. -/
def parsePort? (text : String) : Option UInt16 :=
  let digits := match text.toList with
    | '+' :: rest => rest
    | other => other
  if digits.isEmpty || !digits.all Char.isDigit then none
  else
    let value : Nat := digits.foldl (fun n c => min (n * 10 + (c.toNat - '0'.toNat)) 65536) 0
    if value < 65536 then some value.toUInt16 else none

/-- A truth value in words or digits, of any case and between any blanks. -/
def parseFlag? (text : String) : Option Bool :=
  let word := String.ofList ((trim text.toList).map Char.toLower)
  if ["1", "true", "yes", "on"].contains word then some true
  else if ["0", "false", "no", "off"].contains word then some false
  else none

/-- The entries of a list separated by commas. -/
def parseList (text : String) : List String :=
  (((pieces ',' text.toList).map trim).filter (!·.isEmpty)).map String.ofList

/-- The value of a variable as read by a parser, or what stands without it. -/
def override {α : Type} (environment : Environment) (setting : Variable)
    (parse : String → Option α) (current : α) : Except Error α :=
  match environment setting.name with
  | none => .ok current
  | some text =>
    match parse text with
    | some value => .ok value
    | none => .error (.config ("invalid " ++ setting.name ++ ": " ++ text))

/-- A configuration as changed by the environment. -/
def applyEnvironment (config : Config) (environment : Environment) : Except Error Config := do
  let host ← override environment .host some config.host
  let port ← override environment .port parsePort? config.port
  let apiKey ← override environment .apiKey (some ∘ some) config.apiKey
  let corsOrigins ← override environment .corsOrigins (some ∘ parseList) config.corsOrigins
  let enableMcp ← override environment .enableMcp parseFlag? config.enableMcp
  let mcpPath ← override environment .mcpPath some config.mcpPath
  return { host, port, apiKey, corsOrigins, enableMcp, mcpPath }

end ContextDb.Config
