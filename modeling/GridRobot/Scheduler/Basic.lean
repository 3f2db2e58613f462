import GridRobot.Run.Machine

/-!
# Schedulers

A scheduler makes the steps of a run at the pace of a heartbeat: while a run is animated, one step
falls due after every so many heartbeats. A run can also be stepped by hand, and then stays with
the scheduler until it is resumed or given up.

## Main definitions

* `Scheduler` is the state of a scheduler, and `Scheduler.ofInts` a fresh one.
* `Scheduler.start`, `Scheduler.resume`, `Scheduler.clear` and `Scheduler.readyStep` are the
  requests that it answers by itself, `Scheduler.beat` is one heartbeat, and `Scheduler.settle`
  what the result of a step does to it.
* `Refusal` is the reason why a request is not carried out.

## Design notes

A scheduler knows its world by a key only. Who holds the worlds decides which of them a key names,
and so two parties may hold the same world.
-/

namespace GridRobot

/-- What a scheduler is doing. -/
inductive Phase where
  | idle
  | running
  | faulted
  deriving Repr, DecidableEq

/-- Name of what a scheduler is doing. -/
def Phase.name : Phase → String
  | .idle => "IDLE"
  | .running => "RUNNING"
  | .faulted => "FAULTED"

/-- A run, and the key of the world it acts on. -/
structure Held (κ : Type) where
  run : Run
  world : κ

/-- State of a scheduler. -/
structure Scheduler (κ : Type) where
  limits : Limits
  /-- Heartbeats from one step of an animated run to the next. -/
  period : Nat
  /-- Heartbeats until the next step falls due. -/
  countdown : Nat
  phase : Phase
  held : Option (Held κ)
  lastFault : Option Fault
  /-- Is a step being made at this moment? -/
  stepping : Bool

/-- Why a request is not carried out. -/
inductive Refusal where
  | programNeeded
  | noWorld
  | nothingSuspended
  | stepInProgress
  | programRuns
  /-- The program calls, or begins with, a procedure that it does not have. -/
  | missing (procedure : MissingProcedure)
  /-- The run came to its end in a step during which it was given up. -/
  | runGivenUp
  deriving Repr, DecidableEq

/-- What is said about a request that is not carried out. -/
def Refusal.message : Refusal → String
  | .programNeeded => "A successfully compiled program is required"
  | .noWorld => "No world is loaded yet"
  | .nothingSuspended => "There is no suspended run to resume"
  | .stepInProgress => "A step is already in progress"
  | .programRuns => "Cannot perform a manual action while a program runs"
  | .missing procedure => "There is no procedure " ++ procedure.name
  | .runGivenUp => "The run was given up"

/-- What is said about a number of heartbeats that is not positive. -/
def periodMessage : String :=
  "action_heartbeats must be positive"

namespace Scheduler

variable {κ : Type}

/-- Default for the heartbeats from one step to the next. -/
def defaultPeriod : Int := 1

/-- A scheduler without a run. -/
def fresh (limits : Limits) (period : Nat) : Scheduler κ :=
  ⟨limits, period, period, .idle, none, none, false⟩

/-- A scheduler without a run, for a number of heartbeats that must be positive. -/
def ofInts (limits : Limits) (period : Int) : Option (Scheduler κ) :=
  if period ≤ 0 then none else some (fresh limits period.toNat)

/-- The run that waits for its next step, if there is one. -/
def suspended? (s : Scheduler κ) : Option (Held κ) :=
  s.held.filter fun h => !h.run.terminated

/-- The scheduler with a fresh run of a program on a world; what it did before it still does. -/
def begin (s : Scheduler κ) (program : Option Program) (world : Option κ) :
    Except Refusal (Scheduler κ) :=
  match program with
  | none => .error .programNeeded
  | some p =>
    match world with
    | none => .error .noWorld
    | some w =>
      match Run.start? p with
      | none => .error (.missing ⟨p.entry⟩)
      | some run =>
        .ok { s with held := some ⟨run, w⟩, lastFault := none, countdown := s.period }

/-- Begins to animate a fresh run of a program on a world. -/
def start (s : Scheduler κ) (program : Option Program) (world : Option κ) :
    Except Refusal (Scheduler κ) := do
  .ok { ← s.begin program world with phase := .running }

/-- Goes on to animate the run that waits for its next step. -/
def resume (s : Scheduler κ) : Except Refusal (Scheduler κ) :=
  if s.phase = .running then .ok s
  else if s.suspended?.isNone then .error .nothingSuspended
  else .ok { s with countdown := s.period, phase := .running }

/-- Gives up the run and forgets the last fault. -/
def clear (s : Scheduler κ) : Scheduler κ :=
  { s with phase := .idle, held := none, lastFault := none, countdown := s.period }

/-- Gets ready for a single step, of the run that waits for it, or else of a fresh run of a
program on a world. -/
def readyStep (s : Scheduler κ) (program : Option Program) (world : Option κ) :
    Except Refusal (Scheduler κ) := do
  if s.stepping then .error .stepInProgress
  else
    let ready ← if s.suspended?.isSome then .ok s else s.begin program world
    .ok { ready with phase := .idle }

/-- May the robot be moved by hand, in a world that is there? -/
def allowAction (s : Scheduler κ) (world : Option κ) : Except Refusal κ :=
  if s.phase = .running ∨ s.stepping then .error .programRuns
  else match world with
    | none => .error .noWorld
    | some w => .ok w

/-- One heartbeat: the scheduler after it, and whether a step has fallen due. -/
def beat (s : Scheduler κ) : Scheduler κ × Bool :=
  if s.stepping ∨ s.phase ≠ .running then (s, false)
  else if 1 < s.countdown then ({ s with countdown := s.countdown - 1 }, false)
  else ({ s with countdown := s.period }, true)

/-- What the result of a step does to a scheduler: a run that has come to its end is let go. -/
def settle (s : Scheduler κ) : StepResult → Scheduler κ
  | .continued => s
  | .finished => { s with phase := .idle, held := none }
  | .fault f => { s with phase := .faulted, lastFault := some f, held := none }

end Scheduler

end GridRobot
