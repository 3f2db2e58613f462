import GridRobot.Command.Reading
import GridRobot.Text.Integer

/-!
# The command line of the simulator

There are two commands: one runs a program, the other lists the worlds.

## Main definitions

* `Command.Line` is a command with its settings.
* `Command.Line.read` reads one.
-/

namespace GridRobot.Command

/-- Settings of the command that runs a program. -/
structure RunSettings where
  program : String
  config : Option String
  world : Option String
  worldsDir : Option String
  /-- The number of actions after which the run is stopped; an empty setting holds none. -/
  maxSteps : Option Int
  animate : Bool
  deriving Repr, DecidableEq

/-- Settings of the command that lists the worlds. -/
structure ListSettings where
  config : Option String
  worldsDir : Option String
  deriving Repr, DecidableEq

/-- A command with its settings. -/
inductive Line where
  | run (settings : RunSettings)
  | worlds (settings : ListSettings)
  deriving Repr, DecidableEq

/-- Default for the number of actions after which a run is stopped. -/
def defaultMaxSteps : Int := 100000

/-- The switch for the number of actions, which must be an integer. -/
def maxStepsSwitch : Switch RunSettings :=
  ⟨["--max-steps"], .one, fun arguments s =>
    match arguments with
    | [] => .ok { s with maxSteps := none }
    | word :: _ =>
      match Text.readInteger word.toList with
      | .ok n => .ok { s with maxSteps := some n }
      | .error _ => .error .wrong⟩

/-- The command line of the command that runs a program. -/
def runGrammar : Grammar RunSettings where
  switches := [
    Grammar.help,
    Grammar.flag ["-v", "--verbose"] id,
    Grammar.textSwitch "--config" fun v s => { s with config := v },
    Grammar.textSwitch "--world" fun v s => { s with world := v },
    Grammar.textSwitch "--worlds-dir" fun v s => { s with worldsDir := v },
    maxStepsSwitch,
    Grammar.flag ["--animate"] fun s => { s with animate := true }]
  place := some ⟨false, fun arguments s => .ok { s with program := arguments.headD "" }⟩

/-- The command line of the command that lists the worlds. -/
def worldsGrammar : Grammar ListSettings where
  switches := [
    Grammar.help,
    Grammar.flag ["-v", "--verbose"] id,
    Grammar.textSwitch "--config" fun v s => { s with config := v },
    Grammar.textSwitch "--worlds-dir" fun v s => { s with worldsDir := v }]
  place := none

namespace Line

/-- The command of a name, with the settings that the words after it make. -/
def ofWords : List String → Except Ending Line
  | "run" :: rest =>
    (runGrammar.read ⟨"", none, none, none, some defaultMaxSteps, false⟩ rest).map run
  | "worlds" :: rest =>
    (worldsGrammar.read ⟨none, none⟩ rest).map worlds
  | _ => .error .wrong

/-- The whole command line: a name of a command, and everything after it. -/
def grammar : Grammar (Option Line) where
  switches := [Grammar.help]
  place := some ⟨true, fun words _ => (ofWords words).map some⟩

/-- Reads a command line. -/
def read (line : List String) : Except Ending Line := do
  match ← grammar.read none line with
  | some command => .ok command
  | none => .error .wrong

end Line

end GridRobot.Command
