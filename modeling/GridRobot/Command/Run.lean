import GridRobot.Bundle
import GridRobot.Command.Line
import GridRobot.Command.Performance
import GridRobot.Config.Read

/-!
# Commands

What the commands of the simulator print, and with which status they end.

## Main definitions

* `Command.Output` is what a command prints, with its status.
* `Command.answer` is the output of a command line.

## Design notes

The status is zero for a program that came to its end and for a list of worlds, one for a program
that did not, and two when there was nothing to run.
-/

namespace GridRobot.Command

/-- What a command prints, and the status with which it ends. -/
structure Output where
  status : Nat
  out : LooseText
  err : LooseText
  deriving Repr, DecidableEq

/-- Where commands are carried out: the files, the place of the bundled ones, and the time. -/
structure Scene (τ ω : Type) where
  files : Files
  home : Path
  watch : Watch τ ω
  start : ω

namespace Output

/-- An output of lines about an error, and nothing else. -/
def ofError (status : Nat) (message : LooseText) : Output :=
  ⟨status, "", message ++ "\n"⟩

/-- The status of a command that could not begin. -/
def unusable (message : LooseText) : Output :=
  ofError 2 message

end Output

/-- A text that says something. -/
def given (text : Option String) : Option String :=
  text.filter fun s => !s.isEmpty

/-- What a record and the last state of a workbench say about the end of a run. -/
def verdict (most : Int) (shown : String) (p : Performance) : Output :=
  match p.record.compileError, p.record.fault, p.record.finished with
  | some e, _, _ => ⟨1, shown, e.message ++ "\n"⟩
  | none, some f, _ =>
    ⟨1, shown, "Fault after " ++ toString p.bench.steps ++ " step(s): " ++ f.text ++ "\n"⟩
  | none, none, none => ⟨1, shown, "Stopped: step limit of " ++ toString most ++ " reached\n"⟩
  | none, none, some n => ⟨0, shown ++ "Finished after " ++ toString n ++ " step(s)\n", ""⟩

/-- What a performance has shown: its film, or else the picture of its last state. -/
def shownBy (p : Performance) : Except Breakdown String :=
  match p.record.film with
  | some film => film.text
  | none => (p.bench.model?.toList.foldl Film.addPicture (.blank false)).text

/-- What is said about a program that cannot be read. -/
def unreadable (program : String) (problem : FileProblem) : String :=
  "Cannot read program " ++ "'" ++ program ++ "': " ++ problem.message (.ofText program)

variable {τ ω : Type}

/-- The library of the worlds that a configuration and a command tell of. -/
def libraryFor (config : Config) (directory : Option String) : Library :=
  ⟨some (((given directory).map Path.ofText).getD config.world.worldsDir),
    config.world.defaultBag⟩

/-- A performance that can begin, and the number of actions after which it is to be stopped. -/
structure Stage where
  first : Performance
  most : Int

/-- Runs a program on a workbench. -/
def perform [Seconds τ] (scene : Scene τ ω) (animate : Bool) (stage : Stage) :
    Except Breakdown Performance :=
  if animate then stage.first.playAnimated scene.watch scene.start stage.most
  else stage.first.playStepwise stage.most stage.most.toNat

/-- Gets the text of a program and its world onto a workbench; there is an output when there is
nothing to perform. -/
def stageSource [Yaml.Reader] (files : Files) (config : Config) (s : RunSettings) (most : Int)
    (source : String) : Except Breakdown (Except Output Stage) := do
  let (opened, b) := Workbench.opened config (libraryFor config s.worldsDir) .direct source s.world
    files
  opened
  let first := Performance.begin (if s.animate then some (.blank true) else none) b
  if b.world?.isNone then
    .ok (.error (.unusable ((first.record.worldError.map LoadError.message).getD "")))
  else if first.record.film.any Film.broken then .error .badNumber
  else .ok (.ok ⟨first, most⟩)

/-- Gets a program and its world onto a workbench; there is an output when there is nothing to
perform. -/
def stage [Yaml.Reader] (files : Files) (config : Config) (s : RunSettings) :
    Except Breakdown (Except Output Stage) :=
  match s.maxSteps with
  | none => .error .missingValue
  | some most =>
    if most ≤ 0 then .ok (.error (.unusable "--max-steps must be positive"))
    else match files.readText (.ofText s.program) with
      | .error (.file problem) => .ok (.error (.unusable (unreadable s.program problem)))
      | .error (.broken b) => .error b
      | .ok source => stageSource files config s most source

/-- The output of the command that runs a program. -/
def runOutput [Yaml.Reader] [Seconds τ] (scene : Scene τ ω) (config : Config) (s : RunSettings) :
    Except Breakdown Output := do
  match ← stage scene.files config s with
  | .error output => .ok output
  | .ok ready =>
    let last ← perform scene s.animate ready
    .ok (verdict ready.most (← shownBy last) last)

/-- The output of the command that lists the worlds. -/
def listOutput (files : Files) (config : Config) (s : ListSettings) : Except Breakdown Output := do
  let names ← (libraryFor config s.worldsDir).names files
  .ok ⟨0, ⟨names.flatMap fun name => name.points ++ [.char '\n']⟩, ""⟩

/-- The configuration file of a command. -/
def Line.configFile (home : Path) (command : Line) : Path :=
  let chosen := match command with
    | .run s => s.config
    | .worlds s => s.config
  match given chosen with
  | some file => .ofText file
  | none => Bundle.configFile home

/-- The output of a command. -/
def Line.output [Yaml.Reader] [Seconds τ] (scene : Scene τ ω) (command : Line) :
    Except Breakdown Output :=
  match Config.load scene.files (command.configFile scene.home) with
  | .error (.error e) => .ok (.unusable e.message)
  | .error (.broken b) => .error b
  | .ok config =>
    match command with
    | .worlds s => listOutput scene.files config s
    | .run s => runOutput scene config s

/-- What becomes of a command line. -/
inductive Reply where
  /-- There is nothing but advice on how to use the program. -/
  | usage (ending : Ending)
  | output (o : Output)
  | failed (b : Breakdown)

/-- The status with which the reading of a command line ends when it ends early. -/
def Ending.status : Ending → Nat
  | .help => 0
  | .wrong => 2

/-- What becomes of a command line. -/
def answer [Yaml.Reader] [Seconds τ] (scene : Scene τ ω) (line : List String) : Reply :=
  match Line.read line with
  | .error ending => .usage ending
  | .ok command =>
    match command.output scene with
    | .ok o => .output o
    | .error e => .failed e

end GridRobot.Command
