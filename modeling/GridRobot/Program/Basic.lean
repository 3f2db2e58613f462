import GridRobot.Grid

/-!
# Programs

A program is a table of named procedures and the name of the procedure with which a run begins.
Procedure bodies are lists of statements.

## Main definitions

* `Action` is something the robot does, and `Predicate` a question it can answer.
* `Condition`, `Statement`, `Procedure` and `Program` are the tree of a program.
* `Program.procedure?` looks a procedure up by its name.
* `Program.ofActions` is the straight-line program of some actions.

## Design notes

Every condition and statement carries the source line on which it begins. A table holds each name
once; `Program.ofProcedures` brings any list of procedures into that form.
-/

namespace GridRobot

/-- A primitive action; each one is a step of a run. -/
inductive Action where
  | move
  | turnLeft
  | turnRight
  | putBeeper
  | pickBeeper
  deriving Repr, DecidableEq, Inhabited

namespace Action

/-- All primitive actions. -/
def all : List Action :=
  [move, turnLeft, turnRight, putBeeper, pickBeeper]

/-- Name of an action in program text. -/
def name : Action → String
  | move => "move"
  | turnLeft => "turnLeft"
  | turnRight => "turnRight"
  | putBeeper => "putBeeper"
  | pickBeeper => "pickBeeper"

/-- The action of a name. -/
def ofName? (name : String) : Option Action :=
  all.find? fun a => a.name == name

end Action

/-- What the robot can sense. -/
inductive Sense where
  | frontClear
  | leftClear
  | rightClear
  | beepersPresent
  | beepersInBag
  | facing (d : Direction)
  deriving Repr, DecidableEq, Inhabited

/-- A question about the world: does the robot sense it, or does it not? -/
structure Predicate where
  sense : Sense
  expected : Bool
  deriving Repr, DecidableEq, Inhabited

namespace Predicate

/-- All predicates. -/
def all : List Predicate :=
  [⟨.frontClear, true⟩, ⟨.frontClear, false⟩, ⟨.leftClear, true⟩, ⟨.leftClear, false⟩,
   ⟨.rightClear, true⟩, ⟨.rightClear, false⟩, ⟨.beepersPresent, true⟩, ⟨.beepersPresent, false⟩,
   ⟨.beepersInBag, true⟩, ⟨.beepersInBag, false⟩,
   ⟨.facing .north, true⟩, ⟨.facing .east, true⟩, ⟨.facing .south, true⟩, ⟨.facing .west, true⟩,
   ⟨.facing .north, false⟩, ⟨.facing .east, false⟩, ⟨.facing .south, false⟩,
   ⟨.facing .west, false⟩]

/-- Name of a predicate in program text. -/
def name : Predicate → String
  | ⟨.frontClear, true⟩ => "frontIsClear"
  | ⟨.frontClear, false⟩ => "frontIsBlocked"
  | ⟨.leftClear, true⟩ => "leftIsClear"
  | ⟨.leftClear, false⟩ => "leftIsBlocked"
  | ⟨.rightClear, true⟩ => "rightIsClear"
  | ⟨.rightClear, false⟩ => "rightIsBlocked"
  | ⟨.beepersPresent, true⟩ => "beepersPresent"
  | ⟨.beepersPresent, false⟩ => "noBeepersPresent"
  | ⟨.beepersInBag, true⟩ => "beepersInBag"
  | ⟨.beepersInBag, false⟩ => "noBeepersInBag"
  | ⟨.facing .north, true⟩ => "facingNorth"
  | ⟨.facing .east, true⟩ => "facingEast"
  | ⟨.facing .south, true⟩ => "facingSouth"
  | ⟨.facing .west, true⟩ => "facingWest"
  | ⟨.facing .north, false⟩ => "notFacingNorth"
  | ⟨.facing .east, false⟩ => "notFacingEast"
  | ⟨.facing .south, false⟩ => "notFacingSouth"
  | ⟨.facing .west, false⟩ => "notFacingWest"

/-- The predicate of a name. -/
def ofName? (name : String) : Option Predicate :=
  all.find? fun p => p.name == name

end Predicate

/-- A condition of a program, with the source line of each of its parts. -/
inductive Condition where
  | predicate (p : Predicate) (line : Int)
  | not (operand : Condition) (line : Int)
  | and (left right : Condition) (line : Int)
  | or (left right : Condition) (line : Int)
  deriving Repr, Inhabited

/-- A statement of a program, with its source line. -/
inductive Statement where
  | action (a : Action) (line : Int)
  | call (name : String) (line : Int)
  | ifElse (condition : Condition) (thenBody elseBody : List Statement) (line : Int)
  | whileLoop (condition : Condition) (body : List Statement) (line : Int)
  | doWhile (body : List Statement) (condition : Condition) (line : Int)
  | repeatLoop (count : Int) (body : List Statement) (line : Int)
  deriving Repr, Inhabited

/-- Source line of a statement. -/
def Statement.line : Statement → Int
  | .action _ line => line
  | .call _ line => line
  | .ifElse _ _ _ line => line
  | .whileLoop _ _ line => line
  | .doWhile _ _ line => line
  | .repeatLoop _ _ line => line

/-- A named body of statements. -/
structure Procedure where
  name : String
  body : List Statement
  line : Int
  deriving Repr

/-- A table of procedures, in the order of their definition, and the entry's name. -/
structure Program where
  procedures : List Procedure
  entry : String
  deriving Repr

namespace Program

/-- The procedure of a name, if the table has one. -/
def procedure? (p : Program) (name : String) : Option Procedure :=
  p.procedures.find? fun q => q.name == name

/-- The table in which `q` is entered: in the place of the procedure of its name, or at the end. -/
def enter (table : List Procedure) (q : Procedure) : List Procedure :=
  if table.any (·.name == q.name) then
    table.map fun r => if r.name == q.name then q else r
  else table ++ [q]

/-- The program whose table is made by entering some procedures in turn. -/
def ofProcedures (entry : String) (procedures : List Procedure) : Program :=
  ⟨procedures.foldl enter [], entry⟩

/-- The program of one procedure that performs some actions, one to a line. -/
def ofActions (actions : List Action) (entry : String) : Program :=
  let body := actions.zipIdx.map fun (a, i) => Statement.action a (i + 1 : Nat)
  ⟨[⟨entry, body, 1⟩], entry⟩

end Program

end GridRobot
