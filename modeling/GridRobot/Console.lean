import GridRobot.Number.Double
import GridRobot.Workbench.Requests

/-!
# Consoles

A console is a workbench seen from outside: its state in one word, what happened last in one
message, and the load of the machine it runs on.

## Main definitions

* `Console` is a workbench with a message.
* `Console.state` is its state in one word.
* `Notice.message?` is the message that a notice gives rise to.
* `Monitor` gives readings of the load of the machine.
-/

namespace GridRobot

/-- State of a console. -/
inductive ConsoleState where
  /-- No world has arrived yet. -/
  | loading
  | idle
  | running
  | faulted
  deriving Repr, DecidableEq

/-- Name of the state of a console. -/
def ConsoleState.name : ConsoleState → String
  | .loading => "LOADING"
  | .idle => "IDLE"
  | .running => "RUNNING"
  | .faulted => "FAULTED"

/-- The state of a console while the scheduler does something and a world is shown. -/
def Phase.consoleState : Phase → ConsoleState
  | .idle => .idle
  | .running => .running
  | .faulted => .faulted

/-- The message that a notice gives rise to. -/
def Notice.message? : Notice → Option LooseText
  | .drawn _ => none
  | .compileError e => some e.message
  | .fault f => some ("Error: " ++ f.message)
  | .finished steps => some ("Finished in " ++ toString steps ++ " step(s)")
  | .rejected reason => some reason.message
  | .loaded name => some ("Loaded " ++ name)
  | .worldError _ e => some e.message

/-- A reading of the load of the machine, as a double or as an integer that is to become one. -/
inductive LoadReading where
  | double (x : Float)
  | integer (n : Int)

/-- The double that a reading is, if there is one. -/
def LoadReading.toDouble : LoadReading → Except Breakdown Float
  | double x => .ok x
  | integer n =>
    match integerDouble? n with
    | some x => .ok x
    | none => .error .tooGreat

/-- Readings of the load of the machine that are still to come. -/
structure Monitor where
  cpu : List LoadReading
  memory : List LoadReading

namespace Monitor

/-- A monitor that has been switched on; its first reading of the processor means nothing. -/
def switchOn (m : Monitor) : Monitor :=
  { m with cpu := m.cpu.drop 1 }

/-- The next readings of the processor and the memory. The memory is not read when the reading of
the processor is no double. -/
def sample (m : Monitor) : Except Breakdown (Option Float × Option Float) × Monitor :=
  let after : Monitor := ⟨m.cpu.drop 1, m.memory⟩
  match m.cpu.head?.mapM LoadReading.toDouble with
  | .error b => (.error b, after)
  | .ok cpu =>
    ((m.memory.head?.mapM LoadReading.toDouble).map fun memory => (cpu, memory),
      { after with memory := m.memory.drop 1 })

end Monitor

/-- A workbench, and what happened last in one message. -/
structure Console where
  bench : Workbench
  message : LooseText

namespace Console

/-- The last message that notices give rise to, if any does. -/
def lastMessage (before : LooseText) (notices : List Notice) : LooseText :=
  (notices.filterMap Notice.message?).getLast?.getD before

/-- A console that shows the last message of a workbench, or else an earlier one. -/
def follow (message : LooseText) (b : Workbench) : Console :=
  ⟨b, lastMessage message b.notices⟩

/-- A console at its beginning, for a workbench at its beginning. -/
def opened (b : Workbench) : Console :=
  follow "" b

/-- The state of a console in one word. -/
def state (c : Console) : ConsoleState :=
  if c.bench.world?.isNone then .loading else c.bench.desk.scheduler.phase.consoleState

/-- Compiles the program and begins to animate it. -/
def play (c : Console) : Except Breakdown Unit × Console :=
  let (r, b) := c.bench.newPage.play
  let after := follow "" b
  match r with
  | .error i => (.error i, after)
  | .ok outcome =>
    let runs := outcome.toBool && b.animating
    (.ok (), if runs then { after with message := "Running" } else after)

/-- Gives up the run, and asks for the world again. -/
def stop [Yaml.Reader] (c : Console) (files : Files) : Except Breakdown Unit × Console :=
  let (r, b) := c.bench.newPage.stop files
  match r with
  | .error i => (.error i, follow c.message b)
  | .ok () => (.ok (), ⟨b, "Stopped"⟩)

/-- Goes on to animate a run that waits for its next step. -/
def resume (c : Console) : Console :=
  follow c.message c.bench.newPage.resume

/-- Makes one step. -/
def singleStep (c : Console) : Except Breakdown Unit × Console :=
  let (r, b) := c.bench.newPage.singleStep
  (r.map fun _ => (), follow c.message b)

/-- What is said about an action that there is not. -/
def unknownActionMessage (name : LooseText) : LooseText :=
  "Unknown action '" ++ name ++ "'"

/-- Performs the action of a name by hand, if there is one. -/
def manual? (c : Console) (name : String) : Option Console :=
  (Action.ofName? name).map fun a => follow c.message (c.bench.newPage.manual a).2

/-- Gives up the run, and asks for another world. -/
def changeWorld [Yaml.Reader] (c : Console) (files : Files) (name : LooseText) :
    Except Breakdown Unit × Console :=
  let (r, b) := c.bench.newPage.changeWorld files name
  (r, follow ("Loading " ++ name ++ "...") b)

/-- So many heartbeats. -/
def tick (c : Console) (beats : Nat) : Console :=
  follow c.message (c.bench.newPage.tick beats)

/-- Delivers the arrival with a number, if there is one. -/
def deliverAt (c : Console) (i : Int) : Console :=
  follow c.message (c.bench.newPage.deliverAt i)

/-- Puts another text of a program on the workbench. -/
def setSource (c : Console) (source : String) : Console :=
  { c with bench := { c.bench with source := source } }

/-- The names of the worlds to choose from; that of the first world is always among them. -/
def worldNames (c : Console) (files : Files) : Except Breakdown (List LooseText) := do
  let names ← c.bench.library.names files
  let first := c.bench.config.world.initialWorld
  .ok (if names.contains first then names else first :: names)

end Console

end GridRobot
