import ContextDb.CommandLine.Arguments

/-!
# Help

What is printed about the program and about each of its commands.
-/

namespace ContextDb.CommandLine

/-- The name of the program. -/
def programName : String := "openviking-server"

/-- What a command does. -/
def CommandName.about : CommandName → String
  | .serve => "Start the HTTP server (includes MCP at the configured path)"
  | .mcp => "Start the MCP server on stdio"
  | .catalog => "Print the MCP route maps and the tools and resources they produce"

/-- What the command for help does. -/
def aboutHelp : String := "Print this message or the help of the given subcommand(s)"

/-- The lines about the options of a command. -/
def CommandName.optionLines : CommandName → List String
  | .serve =>
    ["      --config <CONFIG>  Path to a TOML config file",
      "      --host <HOST>      Address to bind",
      "  -p, --port <PORT>      Port to listen on",
      "  -v, --verbose          Verbose output",
      "      --no-mcp           Disable the MCP endpoint",
      "  -h, --help             Print help"]
  | .mcp | .catalog =>
    ["      --config <CONFIG>  Path to a TOML config file",
      "  -v, --verbose          Verbose output",
      "  -h, --help             Print help"]

/-- The lines about the program. -/
def programLines : List String :=
  ["OpenViking HTTP server with an MCP bridge", "",
    "Usage: " ++ programName ++ " [OPTIONS] <COMMAND>", "",
    "Commands:",
    "  serve    " ++ CommandName.serve.about,
    "  mcp      " ++ CommandName.mcp.about,
    "  catalog  " ++ CommandName.catalog.about,
    "  help     " ++ aboutHelp, "",
    "Options:",
    "      --config <CONFIG>  Path to a TOML config file",
    "  -v, --verbose          Verbose output",
    "  -h, --help             Print help",
    "  -V, --version          Print version"]

/-- The lines about a topic. -/
def Topic.lines : Topic → List String
  | .program => programLines
  | .command name =>
    [name.about, "", "Usage: " ++ programName ++ " " ++ name.text ++ " [OPTIONS]", "",
      "Options:"] ++ name.optionLines
  | .help =>
    [aboutHelp, "", "Usage: " ++ programName ++ " help [COMMAND]...", "",
      "Arguments:", "  [COMMAND]...  Print help for the subcommand(s)"]

/-- The help about a topic. -/
def Topic.text (topic : Topic) : String :=
  String.join (topic.lines.map (· ++ "\n"))

end ContextDb.CommandLine
