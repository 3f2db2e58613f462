import GridRobot.Config.Basic
import GridRobot.Scheduler.Desk
import GridRobot.Source.Compile
import GridRobot.World.Library

/-!
# Workbenches

A workbench is where a program is written, compiled, run and watched: it has the text of a program,
a world that is shown, and a scheduler that runs programs on it. What happens on it is told in
notices.

## Main definitions

* `Workbench` is the state of a workbench.
* `Notice` is what is told to those who watch it.
* `Workbench.world?` is the world that is shown.

## Design notes

Every world that is loaded gets a key of its own, and the scheduler and the workbench each keep the
key of their world. So it can be said whether the two look at the same world.
-/

namespace GridRobot

/-- What is told to those who watch a workbench. -/
inductive Notice where
  /-- The world is drawn anew. -/
  | drawn (d : Description)
  | compileError (e : Source.CompileError)
  | fault (f : Fault)
  | finished (steps : Nat)
  | rejected (reason : Refusal)
  | loaded (name : LooseText)
  | worldError (name : LooseText) (e : LoadError)
  deriving Repr, DecidableEq

/-- How a world gets to the workbench after it was asked for. -/
inductive Loading where
  /-- It is there at once. -/
  | direct
  /-- It arrives some time later. -/
  | queued
  /-- It arrives at once, but as something that is loaded elsewhere. -/
  | immediate
  deriving Repr, DecidableEq

/-- A world that was asked for and has been looked up. -/
structure Arrival where
  name : LooseText
  outcome : Except LoadError Description

/-- State of a workbench. -/
structure Workbench where
  config : Config
  library : Library
  loading : Loading
  /-- The text of the program as it stands. -/
  source : String
  /-- How often the text has been read. -/
  reads : Nat
  lastCompile : Option Source.CompileOutcome
  desk : Desk Nat
  /-- Key of the world that is shown, if one is loaded. -/
  shown : Option Nat
  /-- Name of the world that is or will be shown. -/
  worldName : LooseText
  /-- Worlds that have been looked up and have not been delivered. -/
  arrivals : List Arrival
  /-- Heartbeats until the next redraw. -/
  refresh : Nat
  /-- Actions since the last start. -/
  steps : Nat
  /-- What has been told since the last page was turned. -/
  notices : List Notice

namespace Workbench

/-- The workbench with an empty list of notices. -/
def newPage (b : Workbench) : Workbench :=
  { b with notices := [] }

/-- The workbench with one more notice. -/
def tell (b : Workbench) (n : Notice) : Workbench :=
  { b with notices := b.notices ++ [n] }

/-- The world that is shown, if one is loaded. -/
def world? (b : Workbench) : Option World :=
  b.shown.bind b.desk.worlds.get?

/-- The layout of the world that is shown. -/
def model? (b : Workbench) : Option Description :=
  b.world?.map World.snapshot

/-- Is a program being animated? -/
def animating (b : Workbench) : Bool :=
  b.desk.scheduler.phase = .running

/-- Draws the world that is shown, if one is loaded. -/
def draw (b : Workbench) : Workbench :=
  match b.model? with
  | none => b
  | some d => b.tell (.drawn d)

/-- Heartbeats from one redraw to the next. -/
def refreshPeriod (b : Workbench) : Nat :=
  b.config.timing.refreshHeartbeats.toNat

end Workbench

end GridRobot
