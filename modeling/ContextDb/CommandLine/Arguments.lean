import ContextDb.Config.Environment

/-!
# Arguments

The words of a command line: options of the program, a command, and options of
that command. Some options are understood in both places. Reading goes from left
to right, and the first word that asks for help or that is wrong decides.
-/

namespace ContextDb.CommandLine

/-- An option. -/
inductive Switch where
  | config
  | verbose
  | host
  | port
  | withoutMcp
  | help
  | version
  deriving DecidableEq, Repr

namespace Switch

/-- The name of an option after two dashes. -/
def long : Switch → String
  | config => "config"
  | verbose => "verbose"
  | host => "host"
  | port => "port"
  | withoutMcp => "no-mcp"
  | help => "help"
  | version => "version"

/-- The letter of an option after one dash. -/
def short? : Switch → Option Char
  | verbose => some 'v'
  | port => some 'p'
  | help => some 'h'
  | version => some 'V'
  | config | host | withoutMcp => none

/-- Whether an option takes a value. -/
def takesValue : Switch → Bool
  | config | host | port => true
  | verbose | withoutMcp | help | version => false

/-- Whether a text may be the value of an option. -/
def accepts (value : String) : Switch → Bool
  | config => !value.isEmpty
  | port => (Config.parsePort? value).isSome
  | _ => true

end Switch

/-- A command by its name. -/
inductive CommandName where
  | serve
  | mcp
  | catalog
  deriving DecidableEq, Repr

namespace CommandName

/-- A command as it is written. -/
def text : CommandName → String
  | serve => "serve"
  | mcp => "mcp"
  | catalog => "catalog"

/-- The command with a given name. -/
def ofText? (name : String) : Option CommandName :=
  [serve, mcp, catalog].find? (·.text = name)

/-- The options that are understood after a command. -/
def switches : CommandName → List Switch
  | serve => [.config, .verbose, .help, .host, .port, .withoutMcp]
  | mcp | catalog => [.config, .verbose, .help]

end CommandName

/-- The options that are understood in front of a command. -/
def programSwitches : List Switch :=
  [.config, .verbose, .help, .version]

/-- What help is about. -/
inductive Topic where
  | program
  | command (name : CommandName)
  | help
  deriving DecidableEq, Repr

/-- The options that have been given, with their values. -/
abbrev Given := List (Switch × String)

/-- Why reading stops before the end. -/
inductive Interruption where
  | help
  | version
  | invalid
  deriving DecidableEq, Repr

/-- Take an option with its value. No option is given twice. -/
def Given.record (given : Given) (switch : Switch) (value : String) :
    Except Interruption Given :=
  match switch with
  | .help => .error .help
  | .version => .error .version
  | _ =>
    if given.any (·.1 = switch) || !switch.accepts value then .error .invalid
    else .ok (given ++ [(switch, value)])

/-- The value of an option that has been given. -/
def Given.value? (given : Given) (switch : Switch) : Option String :=
  (given.find? (·.1 = switch)).map (·.2)

/-- Whether an option has been given. -/
def Given.has (given : Given) (switch : Switch) : Bool :=
  (given.value? switch).isSome

/-- What a word with options leaves. -/
inductive Progress where
  | done (given : Given)
  /-- the next word is the value of an option -/
  | awaiting (switch : Switch) (given : Given)

/-- Read an option by its name, with the value that is attached to it. -/
def readLong (switches : List Switch) (given : Given) (name : String) (value : Option String) :
    Except Interruption Progress :=
  match switches.find? (·.long = name), value with
  | none, _ => .error .invalid
  | some switch, none =>
    if switch.takesValue then .ok (.awaiting switch given)
    else (given.record switch "").map .done
  | some switch, some value =>
    if switch.takesValue then (given.record switch value).map .done else .error .invalid

/-- Read options by their letters. What follows the letter of an option with a
value is the value, with or without an equals sign in front. -/
def readLetters (switches : List Switch) (given : Given) :
    List Char → Except Interruption Progress
  | [] => .ok (.done given)
  | letter :: rest =>
    match switches.find? (·.short? = some letter) with
    | none => .error .invalid
    | some switch =>
      if switch.takesValue then
        match rest with
        | [] => .ok (.awaiting switch given)
        | '=' :: value => (given.record switch (String.ofList value)).map .done
        | value => (given.record switch (String.ofList value)).map .done
      else
        match given.record switch "" with
        | .error interruption => .error interruption
        | .ok given => readLetters switches given rest

/-- Whether a word is no option. A dash alone is none. -/
def isPlain (word : String) : Bool :=
  match word.toList with
  | '-' :: _ :: _ => false
  | _ => true

/-- Read a word with options. -/
def readOption (switches : List Switch) (given : Given) (word : String) :
    Except Interruption Progress :=
  match word.toList with
  | '-' :: '-' :: rest =>
    let name := String.ofList (rest.takeWhile (· != '='))
    match rest.dropWhile (· != '=') with
    | [] => readLong switches given name none
    | _ :: value => readLong switches given name (some (String.ofList value))
  | _ :: letters => readLetters switches given letters
  | [] => .error .invalid

/-- The word after which no word is an option. -/
def endOfOptions : String := "--"

/-- Read options up to the first word that is none. -/
def readOptions (switches : List Switch) (given : Given) :
    List String → Except Interruption (Given × List String)
  | [] => .ok (given, [])
  | word :: rest =>
    if isPlain word || word = endOfOptions then .ok (given, word :: rest)
    else
      match readOption switches given word with
      | .error interruption => .error interruption
      | .ok (.done given) => readOptions switches given rest
      | .ok (.awaiting switch given) =>
        match rest with
        | [] => .error .invalid
        | value :: rest =>
          if isPlain value then
            match given.record switch value with
            | .error interruption => .error interruption
            | .ok given => readOptions switches given rest
          else .error .invalid

/-- A command with its options. -/
structure Invocation where
  command : CommandName
  /-- the options in front of the command -/
  before : Given
  /-- the options after the command -/
  after : Given

/-- The configuration file that is named; a name after the command counts. -/
def Invocation.configPath (invocation : Invocation) : Option String :=
  (invocation.after.value? .config).orElse fun _ => invocation.before.value? .config

/-- What a command line asks for. -/
inductive Reading where
  | run (invocation : Invocation)
  | help (topic : Topic)
  | version
  | invalid

/-- The configuration file that a command line names. -/
def Reading.configPath? : Reading → Option String
  | .run invocation => invocation.configPath
  | _ => none

/-- What an interruption asks for. -/
def Interruption.reading (topic : Topic) : Interruption → Reading
  | .help => .help topic
  | .version => .version
  | .invalid => .invalid

/-- The name of the command that gives help. -/
def helpCommand : String := "help"

/-- Read what help is asked about. -/
def readHelp : List String → Reading
  | [] => .help .program
  | [name] =>
    if name = helpCommand then .help .help
    else
      match CommandName.ofText? name with
      | some command => .help (.command command)
      | none => .invalid
  | _ => .invalid

/-- Read the words after a command. -/
def readCommand (before : Given) (command : CommandName) (words : List String) : Reading :=
  match readOptions command.switches [] words with
  | .error interruption => interruption.reading (.command command)
  | .ok (after, rest) =>
    if rest.isEmpty || rest = [endOfOptions] then .run ⟨command, before, after⟩ else .invalid

/-- Read a command line. -/
def read (words : List String) : Reading :=
  match readOptions programSwitches [] words with
  | .error interruption => interruption.reading .program
  | .ok (_, []) => .invalid
  | .ok (before, name :: rest) =>
    if name = helpCommand then readHelp rest
    else
      match CommandName.ofText? name with
      | some command => readCommand before command rest
      | none => .invalid

end ContextDb.CommandLine
