import ContextDb.Bridge.Conversation
import ContextDb.CommandLine.Help
import ContextDb.CommandLine.Listing
import ContextDb.Config.File
import ContextDb.Server.Application

/-!
# The program

What a command line does, as far as it is decided before anybody is talked to:
print something and end, talk to an agent, or listen for requests. The
configuration is loaded before any command.
-/

namespace ContextDb.CommandLine

/-- What a program leaves: its exit code and what it has printed. -/
structure Output where
  exit : UInt32
  stdout : String
  stderr : String
  deriving DecidableEq, Repr

/-- The output of a program that has done what it was asked. -/
def Output.success (text : String) : Output :=
  ⟨0, text, ""⟩

/-- The output of a program that fails with a message. -/
def Output.failure (message : String) : Output :=
  ⟨1, "", "Error: " ++ message ++ "\n"⟩

/-- The output for a command line that is not understood. -/
def usageError : Output :=
  ⟨2, "", "error: invalid arguments\n\nFor more information, try '--help'.\n"⟩

/-- The output when an agent leaves at a stage of the conversation. -/
def agentLeft : Bridge.Stage → Output
  | .opening => .failure "connection closed: initialized request"
  | .introduced => .failure "connection closed: initialize notification"
  | .confirmed => .success ""
  | .broken => .failure "expect initialized notification"

/-- The output if no requests can be listened for. -/
def cannotListen (config : Config) : Output :=
  .failure ("cannot listen on " ++ config.bindAddress)

/-- The output if the routes of an application conflict. -/
def routeConflict (path : String) : Output :=
  ⟨101, "", "invalid route: " ++ path ++ "\n"⟩

/-- What a command line leads to. -/
inductive Plan where
  | finish (output : Output)
  /-- talk to an agent over standard input and output -/
  | talk (config : Config)
  /-- listen for requests -/
  | listen (config : Config)

/-- A configuration as changed by the options of the command that serves. -/
def serving (config : Config) (given : Given) : Config :=
  { config with
    host := (given.value? .host).getD config.host
    port := ((given.value? .port).bind Config.parsePort?).getD config.port
    enableMcp := config.enableMcp && !given.has .withoutMcp }

/-- Serve under a configuration, if an application can be built of it. -/
def planServe (config : Config) : Plan :=
  match Server.Application.check config true with
  | .ok () => .listen config
  | .error (.config error) => .finish (.failure error.message)
  | .error (.route path) => .finish (routeConflict path)

/-- What a command does under a configuration. -/
def planCommand (invocation : Invocation) (config : Config) : Plan :=
  match invocation.command with
  | .serve => planServe (serving config invocation.after)
  | .mcp => .talk config
  | .catalog => .finish (.success listing)

/-- What a command line leads to in an environment with some files. -/
def plan (words : List String) (environment : Config.Environment) (files : Config.Files)
    (defaultFile : Option Config.PathContent) : Plan :=
  match read words with
  | .invalid => .finish usageError
  | .help topic => .finish (.success topic.text)
  | .version => .finish (.success (programName ++ " " ++ Rest.serviceVersion ++ "\n"))
  | .run invocation =>
    match Config.load invocation.configPath environment files defaultFile with
    | .error error => .finish (.failure error.message)
    | .ok config => planCommand invocation config

end ContextDb.CommandLine
