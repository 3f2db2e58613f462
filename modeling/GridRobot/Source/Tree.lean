import GridRobot.Source.Error

/-!
# Trees of program text

What the grammar makes of a row of tokens, before any name is looked up. A call is a name with a
number of arguments, wherever it stands.

## Main definitions

* `Call`, `Condition`, `Statement`, `Definition` and `Listing` are the trees.
* `Condition.height` is the number of operators above the deepest call of a condition.
-/

namespace GridRobot.Source

/-- A name followed by arguments in parentheses. -/
structure Call where
  name : String
  arguments : Nat
  position : Position
  deriving Repr, DecidableEq

/-- Operators between two conditions. -/
inductive Connective where
  | both
  | either
  deriving Repr, DecidableEq

/-- A condition as it is written. -/
inductive Condition where
  | call (c : Call)
  | not (operand : Condition) (line : Nat)
  | binary (op : Connective) (left right : Condition) (line : Nat)
  deriving Repr, DecidableEq

/-- Number of operators above the deepest call. -/
def Condition.height : Condition → Nat
  | .call _ => 0
  | .not operand _ => operand.height + 1
  | .binary _ left right _ => 1 + max left.height right.height

/-- A statement as it is written. -/
inductive Statement where
  | call (c : Call)
  | ifElse (condition : Condition) (thenBody elseBody : List Statement) (line : Nat)
  | whileLoop (condition : Condition) (body : List Statement) (line : Nat)
  | doWhile (body : List Statement) (condition : Condition) (line : Nat)
  | repeatLoop (count : Nat) (body : List Statement) (line : Nat)
  deriving Repr

/-- Line on which a statement begins. -/
def Statement.line : Statement → Nat
  | .call c => c.position.line
  | .ifElse _ _ _ line => line
  | .whileLoop _ _ line => line
  | .doWhile _ _ line => line
  | .repeatLoop _ _ line => line

/-- Place of a statement as far as it is kept: a call keeps its position, any other statement only
its line. -/
def Statement.place : Statement → Place
  | .call c => .position c.position
  | s => .line s.line

/-- A procedure as it is written; the position is that of its name. -/
structure Definition where
  name : String
  body : List Statement
  position : Position
  deriving Repr

/-- A whole text: its procedures, and the statements outside of them. -/
structure Listing where
  definitions : List Definition
  loose : List Statement
  deriving Repr

end GridRobot.Source
