/-!
# Faults and step results

What one step of a run, or one manual action, may come to.

## Main definitions

* `FaultKind` is the reason why an action or a run cannot go on, `Fault` the reason with a line.
* `StepResult` is what a step came to.
-/

namespace GridRobot

/-- Reasons why an action or a run cannot go on. -/
inductive FaultKind where
  | blockedByWall
  | noBeeperToPickUp
  | noBeeperToPutDown
  | stackOverflow
  | alreadyTerminated
  | noProgress
  deriving Repr, DecidableEq

namespace FaultKind

/-- All reasons. -/
def all : List FaultKind :=
  [blockedByWall, noBeeperToPickUp, noBeeperToPutDown, stackOverflow, alreadyTerminated,
   noProgress]

/-- Name of a reason. -/
def name : FaultKind → String
  | blockedByWall => "BlockedByWall"
  | noBeeperToPickUp => "NoBeeperToPickUp"
  | noBeeperToPutDown => "NoBeeperToPutDown"
  | stackOverflow => "StackOverflow"
  | alreadyTerminated => "AlreadyTerminated"
  | noProgress => "NoProgress"

/-- A reason in words. -/
def explanation : FaultKind → String
  | blockedByWall => "Karel is blocked by a wall"
  | noBeeperToPickUp => "There is no beeper here to pick up"
  | noBeeperToPutDown => "Karel has no beepers left in the bag"
  | stackOverflow => "Too many nested procedure calls"
  | alreadyTerminated => "The run has already ended"
  | noProgress => "The program loops without performing any action"

end FaultKind

/-- A reason, and the source line of the statement that met it. -/
structure Fault where
  kind : FaultKind
  line : Option Int
  deriving Repr, DecidableEq

namespace Fault

/-- A fault in words. -/
def message (f : Fault) : String :=
  match f.line with
  | none => f.kind.explanation
  | some line => f.kind.explanation ++ " (line " ++ toString line ++ ")"

/-- A fault in words, after its name. -/
def text (f : Fault) : String :=
  f.kind.name ++ ": " ++ f.message

end Fault

/-- What one step came to. -/
inductive StepResult where
  /-- An action was performed. -/
  | continued
  /-- The program has no further action. -/
  | finished
  | fault (f : Fault)
  deriving Repr, DecidableEq

namespace StepResult

/-- The fault of a kind, met at a line. -/
def faulted (kind : FaultKind) (line : Option Int) : StepResult :=
  .fault ⟨kind, line⟩

/-- The fault that a step met, if any. -/
def fault? : StepResult → Option Fault
  | fault f => some f
  | _ => none

/-- Name of what a step came to. -/
def name : StepResult → String
  | continued => "CONTINUED"
  | finished => "FINISHED"
  | fault _ => "FAULT"

/-- A result after which the run does not go on. -/
def isTerminal : StepResult → Bool
  | continued => false
  | _ => true

end StepResult

end GridRobot
