import GridRobot.Program.Basic
import GridRobot.Proofs.Program.Linked

/-!
# How deep programs nest

A statement may hold bodies, which hold statements in their turn, and a condition is built of
operators. Both can be counted from the inside out.

## Main definitions

* `Condition.height` is the number of operators above the deepest predicate of a condition.
* `Statement.nesting` and `bodyNesting` are the number of bodies inside of each other.
* `Program.Within` says that neither is greater than a number anywhere in a program.
-/

namespace GridRobot

/-- Number of operators above the deepest predicate. -/
def Condition.height : Condition → Nat
  | .predicate _ _ => 0
  | .not c _ => c.height + 1
  | .and l r _ => 1 + max l.height r.height
  | .or l r _ => 1 + max l.height r.height

mutual

/-- Number of bodies inside of each other in a statement; an action or a call has none. -/
def Statement.nesting : Statement → Nat
  | .action _ _ => 0
  | .call _ _ => 0
  | .ifElse _ t e _ => max (bodyNesting t) (bodyNesting e) + 1
  | .whileLoop _ body _ => bodyNesting body + 1
  | .doWhile body _ _ => bodyNesting body + 1
  | .repeatLoop _ body _ => bodyNesting body + 1

/-- Number of bodies inside of each other below a body; the body itself does not count. -/
def bodyNesting : List Statement → Nat
  | [] => 0
  | s :: rest => max s.nesting (bodyNesting rest)

end

/-- The condition of a statement, if it has one. -/
def Statement.condition? : Statement → Option Condition
  | .ifElse c _ _ _ => some c
  | .whileLoop c _ _ => some c
  | .doWhile _ c _ => some c
  | _ => none

/-- No procedure of a program has more than so many bodies inside of each other below its own, and
none has a higher condition. -/
structure Program.Within (p : Program) (limit : Nat) : Prop where
  nesting : ∀ q ∈ p.procedures, bodyNesting q.body ≤ limit
  height : ∀ q ∈ p.procedures, ∀ s ∈ bodyParts q.body, ∀ c ∈ s.condition?, c.height ≤ limit

theorem nesting_le_of_mem {s : Statement} {body : List Statement} (h : s ∈ body) :
    s.nesting ≤ bodyNesting body := by
  induction body with
  | nil => cases h
  | cons first rest ih =>
    rw [bodyNesting]
    rcases List.mem_cons.1 h with rfl | hrest
    · exact Nat.le_max_left _ _
    · exact Nat.le_trans (ih hrest) (Nat.le_max_right _ _)

end GridRobot
