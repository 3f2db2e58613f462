import GridRobot.World.Basic

/-!
# Programs with other lines

A program carries the lines of its text along and makes nothing of them. Here each line of a program
is replaced by the value of a function.

## Main definitions

* `Statement.relined` and `Program.relined` replace the lines of a statement and of a program.

## Main statements

* `Condition.eval_relined`: a condition holds whatever its lines are.
* `Program.procedure?_relined`: a name leads to the procedure it led to.
* `Program.relined_id`: with each line replaced by itself the program is the same.
-/

namespace GridRobot

/-- The condition with other lines. -/
def Condition.relined (φ : Int → Int) : Condition → Condition
  | .predicate p line => .predicate p (φ line)
  | .not c line => .not (c.relined φ) (φ line)
  | .and l r line => .and (l.relined φ) (r.relined φ) (φ line)
  | .or l r line => .or (l.relined φ) (r.relined φ) (φ line)

mutual

/-- The statement with other lines. -/
def Statement.relined (φ : Int → Int) : Statement → Statement
  | .action a line => .action a (φ line)
  | .call name line => .call name (φ line)
  | .ifElse c t e line => .ifElse (c.relined φ) (relinedBody φ t) (relinedBody φ e) (φ line)
  | .whileLoop c body line => .whileLoop (c.relined φ) (relinedBody φ body) (φ line)
  | .doWhile body c line => .doWhile (relinedBody φ body) (c.relined φ) (φ line)
  | .repeatLoop n body line => .repeatLoop n (relinedBody φ body) (φ line)

/-- The row of statements with other lines. -/
def relinedBody (φ : Int → Int) : List Statement → List Statement
  | [] => []
  | s :: rest => s.relined φ :: relinedBody φ rest

end

/-- The procedure with other lines. -/
def Procedure.relined (φ : Int → Int) (q : Procedure) : Procedure :=
  ⟨q.name, relinedBody φ q.body, φ q.line⟩

/-- The program with other lines: the same table in the same order, and the same entry. -/
def Program.relined (φ : Int → Int) (p : Program) : Program :=
  ⟨p.procedures.map (Procedure.relined φ), p.entry⟩

variable {φ : Int → Int}

theorem isEmpty_relinedBody (body : List Statement) :
    (relinedBody φ body).isEmpty = body.isEmpty := by
  cases body <;> rfl

@[simp] theorem Statement.line_relined (s : Statement) : (s.relined φ).line = φ s.line := by
  cases s <;> rfl

/-- A condition holds whatever its lines are. -/
@[simp] theorem Condition.eval_relined (c : Condition) (w : World) :
    (c.relined φ).eval w = c.eval w := by
  induction c with
  | predicate p line => rfl
  | not c line ih => simp only [relined, eval, ih]
  | and l r line ihl ihr => simp only [relined, eval, ihl, ihr]
  | or l r line ihl ihr => simp only [relined, eval, ihl, ihr]

namespace Program

variable {p : Program} {name : String}

@[simp] theorem relined_entry : (p.relined φ).entry = p.entry := rfl

/-- A name leads to the procedure it led to. -/
@[simp] theorem procedure?_relined :
    (p.relined φ).procedure? name = (p.procedure? name).map (Procedure.relined φ) := by
  rw [procedure?, relined, List.find?_map]
  rfl

theorem names_relined : (p.relined φ).procedures.map (·.name) = p.procedures.map (·.name) := by
  rw [relined, List.map_map]
  rfl

end Program

/-! ### Lines replaced by themselves -/

theorem Condition.relined_id (c : Condition) : c.relined id = c := by
  induction c with
  | predicate p line => rfl
  | not c line ih => simp only [relined, ih, id]
  | and l r line ihl ihr => simp only [relined, ihl, ihr, id]
  | or l r line ihl ihr => simp only [relined, ihl, ihr, id]

mutual

theorem Statement.relined_id (s : Statement) : s.relined id = s := by
  cases s with
  | action a line => rfl
  | call name line => rfl
  | ifElse c t e line =>
    rw [Statement.relined, c.relined_id, relinedBody_id t, relinedBody_id e, id]
  | whileLoop c body line => rw [Statement.relined, c.relined_id, relinedBody_id body, id]
  | doWhile body c line => rw [Statement.relined, c.relined_id, relinedBody_id body, id]
  | repeatLoop n body line => rw [Statement.relined, relinedBody_id body, id]

theorem relinedBody_id (body : List Statement) : relinedBody id body = body := by
  cases body with
  | nil => rfl
  | cons s rest => rw [relinedBody, s.relined_id, relinedBody_id rest]

end

theorem Procedure.relined_id (q : Procedure) : q.relined id = q := by
  rw [relined, relinedBody_id, id]

/-- With each line replaced by itself the program is the same. -/
theorem Program.relined_id (p : Program) : p.relined id = p := by
  have htable : p.procedures.map (Procedure.relined id) = p.procedures := by
    rw [funext Procedure.relined_id]
    exact List.map_id _
  rw [relined, htable]

end GridRobot
