import ContextDb.Bridge.Conversation
import ContextDb.CommandLine.Program

/-!
# The command line program

Reads the environment and the configuration files, prints what was decided, and
passes lines between an agent and the bridge. All decisions are made elsewhere.
-/

namespace ContextDb.CommandLine

/-- The variables that are set among those with given names. -/
def setVariables (names : List String) : IO (List (String × String)) :=
  names.filterMapM fun name => do
    return (← IO.getEnv name).map (name, ·)

/-- What stands at a path, as far as it can be told by reading it. -/
def contentOf? (path : String) : IO (Option Config.PathContent) := do
  try
    return some (.file (← IO.FS.readBinFile path).data.toList)
  catch error =>
    match error with
    | .inappropriateType none .. => return some .directory
    | _ => return none

/-- What stands at a path that may be named. -/
def contentOfNamed? : Option String → IO (Option Config.PathContent)
  | none => return none
  | some path => contentOf? path

/-- The moment of a call, in seconds since the program started, with random bits
for an identifier. -/
def momentSince (start : Nat) : IO Moment := do
  let bits ← IO.rand 0 (Nat.pow 2 128 - 1)
  return { now := ((← IO.monoMsNow) - start) / 1000, freshId := .ofRandom (.ofNat 128 bits) }

/-- Print an output, for its exit code. -/
def finish (output : Output) : IO UInt32 := do
  IO.print output.stdout
  IO.eprint output.stderr
  return output.exit

/-- Answer the messages of an agent, a line each, until it leaves. -/
partial def talk (config : Config) (start : Nat) (input output : IO.FS.Stream)
    (conversation : Bridge.Conversation) : IO UInt32 := do
  let line ← input.getLine
  if line.isEmpty then finish (agentLeft conversation.stage)
  else
    let moment ← momentSince start
    let (reply, conversation) :=
      conversation.answerLine (.live ⟨config, moment, moment.now⟩) line
    if let some text := reply then
      output.putStrLn text
      output.flush
    talk config start input output conversation

/-- Run the program with the words of a command line. -/
def run (words : List String) : IO UInt32 := do
  let assigned ← setVariables Config.variableNames
  let environment : Config.Environment := fun name =>
    (assigned.find? (·.1 = name)).map (·.2)
  let named := (read words).configPath?.orElse fun _ => environment Config.fileVariable
  let content ← contentOfNamed? named
  let home := (← IO.getEnv "HOME").getD ""
  let homeContent ← contentOf? (home ++ Config.homeFile)
  match plan words environment (fun _ => content) homeContent with
  | .finish output => finish output
  | .listen config => finish (cannotListen config)
  | .talk config =>
    talk config (← IO.monoMsNow) (← IO.getStdin) (← IO.getStdout) (.begin (Store.empty 0))

end ContextDb.CommandLine

/-- The program. -/
def main (words : List String) : IO UInt32 :=
  ContextDb.CommandLine.run words
