import GridRobot.Proofs.Program.Linked
import GridRobot.Proofs.World.Invariant

/-!
# Guarded programs

Three actions may fail, and each of them fails exactly where one question is answered with no. Such an
action is guarded when it is the first statement of a body that is begun only where a condition holds,
and when this condition, where it holds in a valid world, comes with a yes to that question.

## Main definitions

* `Action.needs?` is the question that an action needs a yes to.
* `Condition.Ensures` says that a condition comes with a yes to a question.
* `Guards` says that only the first statement of a body may fail, and that the condition under which the
  body is begun ensures what it needs.
* `Program.Guarded` says so of all bodies of a program.

## Main statements

* `World.perform_isOk_iff`: an action succeeds exactly where it has what it needs.
* `Program.Guarded.of_part`: every body inside of a procedure is guarded.
-/

namespace GridRobot

/-- The question that must be answered with yes for an action to succeed; turning needs none. -/
def Action.needs? : Action → Option Predicate
  | .move => some ⟨.frontClear, true⟩
  | .turnLeft => none
  | .turnRight => none
  | .putBeeper => some ⟨.beepersInBag, true⟩
  | .pickBeeper => some ⟨.beepersPresent, true⟩

/-- An action succeeds exactly where it has what it needs, whatever the walls, the end of the grid, the
beepers and the bag. -/
theorem World.perform_isOk_iff {w : World} {a : Action} :
    (∃ after, w.perform a = .ok after) ↔ ∀ q ∈ a.needs?, q.eval w = true := by
  cases a with
  | move =>
    by_cases hclear : w.isClear w.robot.facing = true
    · simp [perform, move, Action.needs?, Predicate.eval, senses, hclear]
    · simp [perform, move, Action.needs?, Predicate.eval, senses, hclear]
  | turnLeft => simp [perform, Action.needs?]
  | turnRight => simp [perform, Action.needs?]
  | putBeeper =>
    by_cases hbag : w.bagHasBeeper = true
    · simp [perform, putBeeper, Action.needs?, Predicate.eval, senses, hbag]
    · simp [perform, putBeeper, Action.needs?, Predicate.eval, senses, hbag]
  | pickBeeper =>
    by_cases hhere : 0 < w.countHere
    · simp [perform, pickBeeper, Action.needs?, Predicate.eval, senses, hhere]
    · simp [perform, pickBeeper, Action.needs?, Predicate.eval, senses, hhere]

namespace Condition

/-- In every valid world in which the condition holds, the question is answered with yes. -/
def Ensures (c : Condition) (q : Predicate) : Prop :=
  ∀ w : World, w.Valid → c.eval w = true → q.eval w = true

variable {c d : Condition} {q : Predicate} {line : Int}

theorem ensures_predicate : (predicate q line).Ensures q :=
  fun _ _ h => h

theorem Ensures.and_left (h : c.Ensures q) : (and c d line).Ensures q := by
  intro w hw hboth
  rw [eval, Bool.and_eq_true] at hboth
  exact h w hw hboth.1

theorem Ensures.and_right (h : d.Ensures q) : (and c d line).Ensures q := by
  intro w hw hboth
  rw [eval, Bool.and_eq_true] at hboth
  exact h w hw hboth.2

end Condition

/-- What a statement needs: an action what it needs itself, any other statement nothing, since it only
opens a body. -/
def Statement.needs? : Statement → Option Predicate
  | .action a _ => a.needs?
  | _ => none

/-- The bodies that a statement holds, each with the condition under which it is begun: that of a branch
which is taken where it holds, or that of a loop which asks before every pass. -/
def Statement.bodies : Statement → List (Option Condition × List Statement)
  | .action _ _ => []
  | .call _ _ => []
  | .ifElse c t e _ => [(some c, t), (none, e)]
  | .whileLoop c body _ => [(some c, body)]
  | .doWhile body _ _ => [(none, body)]
  | .repeatLoop _ body _ => [(none, body)]

/-- Only the first statement of a body needs something, and the condition under which the body is begun
ensures it. -/
structure Guards (guard : Option Condition) (body : List Statement) : Prop where
  first : ∀ s ∈ body.head?, ∀ q ∈ s.needs?, ∃ c ∈ guard, c.Ensures q
  later : ∀ s ∈ body.tail, s.needs? = none

theorem Guards.of_free {guard : Option Condition} {body : List Statement}
    (h : ∀ s ∈ body, s.needs? = none) : Guards guard body where
  first := by
    intro s hs q hq
    rw [h s (List.mem_of_mem_head? hs)] at hq
    cases hq
  later := fun s hs => h s (List.mem_of_mem_tail hs)

theorem Guards.of_ensures {c : Condition} {a : Action} {line : Int} {q : Predicate}
    {rest : List Statement} (hneeds : a.needs? = some q) (hc : c.Ensures q)
    (hrest : ∀ s ∈ rest, s.needs? = none) : Guards (some c) (.action a line :: rest) where
  first := by
    rintro s ⟨⟩ q' hq'
    obtain rfl := Option.some.inj (hneeds.symm.trans hq')
    exact ⟨c, rfl, hc⟩
  later := hrest

namespace Program

/-- All bodies of a program at any depth, each with the condition under which it is begun. -/
def bodies (p : Program) : List (Option Condition × List Statement) :=
  p.procedures.flatMap fun q => (none, q.body) :: (bodyParts q.body).flatMap Statement.bodies

/-- Every action that may fail is guarded by the condition of the body that it is the first statement
of. -/
def Guarded (p : Program) : Prop :=
  ∀ e ∈ p.bodies, Guards e.1 e.2

variable {p : Program} {q : Procedure}

theorem Guarded.of_procedure (h : p.Guarded) (hq : q ∈ p.procedures) : Guards none q.body :=
  h (none, q.body) (List.mem_flatMap.2 ⟨q, hq, List.mem_cons_self⟩)

/-- Every body inside of a procedure is guarded. -/
theorem Guarded.of_part (h : p.Guarded) (hq : q ∈ p.procedures) {s : Statement}
    (hs : s ∈ bodyParts q.body) : ∀ e ∈ s.bodies, Guards e.1 e.2 := fun e he =>
  h e (List.mem_flatMap.2 ⟨q, hq, List.mem_cons_of_mem _ (List.mem_flatMap.2 ⟨s, hs, he⟩)⟩)

end Program

end GridRobot
