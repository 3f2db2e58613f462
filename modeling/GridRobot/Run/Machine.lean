import GridRobot.World.Basic

/-!
# Runs

A run of a program goes from one primitive action to the next. What is left to do is kept on a
stack of frames, so that a run can be left and taken up again between any two actions, and so that
too deep a recursion of the program is a fault of the run.

## Main definitions

* `Frame` is a body that is being worked off, with its statements still to come.
* `Run` is the state of a run, and `Run.start?` a fresh run.
* `Limits` bounds the depth of calls and the work between two actions.
* `Run.step` goes on to the next action.

## Design notes

Only a primitive action is a step. Taking up a statement and coming to the end of a body are free,
but there may be only so many of them in one step. The last of a step's free turns is the one that
meets the action, so a step of `n` turns needs a bound of at least `n`.

What is written into a log is left out. So the line of a fault is never put into words here, and it need
not be short enough for that: the lines of statements are places of a source text, where all of them are.
-/

namespace GridRobot

/-- What a frame was opened for. -/
inductive FrameKind where
  /-- The body of a procedure. -/
  | procedure
  /-- A branch of an `if`. -/
  | block
  /-- The body of a loop that goes on while a condition holds. -/
  | whileLoop (condition : Condition)
  /-- The body of a loop that was entered before its condition was asked. -/
  | doWhile (condition : Condition)
  /-- The body of a counted loop, with the passes left, the present one included. -/
  | repeatLoop (remaining : Nat)
  deriving Repr

/-- A body that is being worked off. -/
structure Frame where
  kind : FrameKind
  body : List Statement
  /-- The statements of the body that are still to come. -/
  rest : List Statement
  deriving Repr

namespace Frame

/-- A frame at the beginning of its body. -/
def enter (kind : FrameKind) (body : List Statement) : Frame :=
  ⟨kind, body, body⟩

/-- Number of statements that have been taken up. -/
def index (f : Frame) : Nat :=
  f.body.length - f.rest.length

/-- Is the frame a call of a procedure? -/
def isCall (f : Frame) : Bool :=
  match f.kind with
  | .procedure => true
  | _ => false

/-- What becomes of a frame at the end of its body: another pass, or nothing. -/
def atEnd (f : Frame) (w : World) : Option Frame :=
  match f.kind with
  | .procedure => none
  | .block => none
  | .whileLoop c => if c.eval w then some { f with rest := f.body } else none
  | .doWhile c => if c.eval w then some { f with rest := f.body } else none
  | .repeatLoop n =>
    if 1 < n then some { f with kind := .repeatLoop (n - 1), rest := f.body } else none

end Frame

/-- Number of calls on a stack that have not returned. -/
def callDepth (stack : List Frame) : Nat :=
  stack.countP Frame.isCall

/-- Line of the next statement on a stack, if any is left; the top of the stack comes first. -/
def nextLine (stack : List Frame) : Option Int :=
  stack.findSome? fun f => f.rest.head?.map Statement.line

/-- How a run stands. -/
inductive RunStatus where
  | running
  | finished
  | faulted
  deriving Repr, DecidableEq

/-- Name of how a run stands. -/
def RunStatus.name : RunStatus → String
  | .running => "RUNNING"
  | .finished => "FINISHED"
  | .faulted => "FAULTED"

/-- State of a run; the top of the stack comes first. -/
structure Run where
  program : Program
  stack : List Frame
  status : RunStatus
  steps : Nat
  lastFault : Option Fault
  deriving Repr

/-- Bounds of a run: open calls, and free turns in one step. -/
structure Limits where
  callDepth : Nat
  freeTurns : Nat
  deriving Repr, DecidableEq

namespace Limits

/-- Default for the number of open calls. -/
def defaultCallDepth : Int := 1000

/-- Default for the number of free turns in one step. -/
def defaultFreeTurns : Int := 100000

/-- Which of two bounds is not positive. -/
inductive Problem where
  | callDepth
  | freeTurns
  deriving Repr, DecidableEq

/-- What is said about a bound that is not positive. -/
def Problem.message : Problem → String
  | .callDepth => "max_call_depth must be positive"
  | .freeTurns => "max_free_ops_per_step must be positive"

/-- Bounds made of two numbers, which must be positive. -/
def ofInts (callDepth freeTurns : Int) : Except Problem Limits :=
  if callDepth ≤ 0 then .error .callDepth
  else if freeTurns ≤ 0 then .error .freeTurns
  else .ok ⟨callDepth.toNat, freeTurns.toNat⟩

end Limits

/-- A procedure that a program calls and does not have. -/
structure MissingProcedure where
  name : String
  deriving Repr, DecidableEq

/-- What one step of a run comes to: a result, or a call of a procedure that is not there, with
the run and the world after it. -/
structure Stepped where
  result : Except MissingProcedure StepResult
  run : Run
  world : World

namespace Run

/-- A fresh run of a program, if the program has its entry procedure. -/
def start? (p : Program) : Option Run :=
  (p.procedure? p.entry).map fun entry =>
    ⟨p, [.enter .procedure entry.body], .running, 0, none⟩

/-- Has the run come to its end? -/
def terminated (r : Run) : Bool :=
  r.status ≠ .running

/-- Line of the next statement, if any is left. -/
def currentLine (r : Run) : Option Int :=
  nextLine r.stack

/-- The run ended by a fault, with the world as it is. -/
def fail (r : Run) (w : World) (kind : FaultKind) (line : Option Int) : Stepped :=
  ⟨.ok (.faulted kind line),
    { r with stack := [], status := .faulted, lastFault := some ⟨kind, line⟩ }, w⟩

/-- The stack with a frame for a body on top, unless the body is not to be entered. -/
def push (enter : Bool) (kind : FrameKind) (body : List Statement) (stack : List Frame) :
    List Frame :=
  if enter then .enter kind body :: stack else stack

/-- Goes on to the next action with the given stack, in at most `turns` free turns. -/
def advance (limits : Limits) (r : Run) (w : World) : Nat → List Frame → Stepped
  | _, [] => ⟨.ok .finished, { r with stack := [], status := .finished }, w⟩
  | 0, top :: below => r.fail w .noProgress (nextLine (top :: below))
  | turns + 1, top :: below =>
    match top.rest with
    | [] =>
      -- the body is through; a loop may begin it once more
      match top.atEnd w with
      | some again => advance limits r w turns (again :: below)
      | none => advance limits r w turns below
    | s :: rest =>
      -- the statement counts as fetched, whatever comes of it
      let stack := { top with rest := rest } :: below
      match s with
      | .action a line =>
        match w.perform a with
        | .ok after => ⟨.ok .continued, { r with stack := stack, steps := r.steps + 1 }, after⟩
        | .error kind => r.fail w kind (some line)
      | .call name line =>
        if limits.callDepth ≤ callDepth stack then r.fail w .stackOverflow (some line)
        else match r.program.procedure? name with
          | none => ⟨.error ⟨name⟩, { r with stack := stack }, w⟩
          | some q => advance limits r w turns (.enter .procedure q.body :: stack)
      | .ifElse c t e _ =>
        let branch := if c.eval w then t else e
        advance limits r w turns (push (!branch.isEmpty) .block branch stack)
      | .whileLoop c body _ =>
        advance limits r w turns (push (c.eval w) (.whileLoop c) body stack)
      | .doWhile body c _ => advance limits r w turns (push true (.doWhile c) body stack)
      | .repeatLoop n body _ =>
        advance limits r w turns
          (push (0 < n && !body.isEmpty) (.repeatLoop n.toNat) body stack)

/-- Goes on to the next action of a run. -/
def step (limits : Limits) (r : Run) (w : World) : Stepped :=
  if r.terminated then ⟨.ok (.faulted .alreadyTerminated none), r, w⟩
  else advance limits r w limits.freeTurns r.stack

end Run

end GridRobot
