import GridRobot.Proofs.Run.Turn

/-!
# Rows of turns

The free turns of a step, counted. From any stack there is one way to go on: there is a turn before
it, or a halt, and never both. So the row of turns between a stack and the first halt after it is
determined, and with it everything that a step comes to.

## Main definitions

* `Turns` is a row of so many free turns.

## Main statements

* `Turns.advance_eq`: going on from a stack is going on from where some turns lead.
* `Run.step_turns`: every step of a run that has not ended is a row of turns and a halt.
* `Turn.unique`, `Turn.not_halt`: a stack has one turn at most, and then no halt.
* `Turns.halt_unique`: only one row of turns leads to a halt.
-/

namespace GridRobot

/-- So many free turns, one after the other. -/
inductive Turns (limits : Limits) (p : Program) (w : World) :
    Nat → List Frame → List Frame → Prop where
  | refl (stack : List Frame) : Turns limits p w 0 stack stack
  | head {n : Nat} {a b c : List Frame} (h : Turn limits p w a b)
      (later : Turns limits p w n b c) : Turns limits p w (n + 1) a c

variable {limits : Limits} {p : Program} {r : Run} {w after after' : World} {k m left left' : Nat}
  {a b c : List Frame} {stack stack' : List Frame} {result result' : Except MissingProcedure StepResult}

/-- Going on from a stack is going on from where some turns lead, with as many turns less. -/
theorem Turns.advance_eq (h : Turns limits r.program w k a b) (m : Nat) :
    Run.advance limits r w (k + m) a = Run.advance limits r w m b := by
  induction h with
  | refl stack => rw [Nat.zero_add]
  | head h _ ih => rw [Nat.add_right_comm, h.advance_eq, ih]

/-- What a turn keeps is kept by all of them. -/
theorem Turns.preserves {P : List Frame → Prop}
    (hP : ∀ {a b : List Frame}, Turn limits p w a b → P a → P b) (h : Turns limits p w k a b)
    (ha : P a) : P b := by
  induction h with
  | refl stack => exact ha
  | head h _ ih => exact ih (hP h ha)

/-- A step is a row of turns and a halt with the turns that are left. -/
theorem Advance.turns {turns : Nat} (h : Advance limits p w turns stack result stack' after) :
    ∃ k left mid, k + left = turns ∧ Turns limits p w k stack mid ∧
      Halt limits p w left mid result stack' after := by
  induction h with
  | @halt left stack stack' result after h =>
    exact ⟨0, left, stack, Nat.zero_add left, .refl stack, h⟩
  | turn h _ ih =>
    obtain ⟨k, left, mid, rfl, hturns, hhalt⟩ := ih
    exact ⟨k + 1, left, mid, Nat.add_right_comm k 1 left, .head h hturns, hhalt⟩

theorem Run.step_turns (limits : Limits) (w : World) (hrun : r.status = .running) :
    ∃ k left mid result stack' after, k + left = limits.freeTurns ∧
      Turns limits r.program w k r.stack mid ∧
      Halt limits r.program w left mid result stack' after ∧
      r.step limits w = ⟨result, r.finishStep stack' result, after⟩ := by
  obtain ⟨result, stack', after, hadv, hout⟩ := step_spec limits w hrun
  obtain ⟨k, left, mid, hfree, hturns, hhalt⟩ := hadv.turns
  exact ⟨k, left, mid, result, stack', after, hfree, hturns, hhalt, hout⟩

/-- A halt with a turn left is one with any number of turns left. -/
theorem Halt.of_succ (h : Halt limits p w (left + 1) stack result stack' after) (m : Nat) :
    Halt limits p w (m + 1) stack result stack' after := by
  cases h with
  | finished => exact .finished _
  | acted hrest ha => exact .acted hrest ha
  | failed hrest ha => exact .failed hrest ha
  | overflow hrest hfull => exact .overflow hrest hfull
  | missing hrest hroom hq => exact .missing hrest hroom hq

/-! ### One way to go on -/

/-- A stack has at most one turn before it: its kind is told by the next statement on top. -/
theorem Turn.unique (h : Turn limits p w a b) (h' : Turn limits p w a c) : b = c := by
  cases h with
  | again hrest hend => cases h' <;> simp_all
  | leave hrest hend => cases h' <;> simp_all
  | call hrest hroom hq => cases h' <;> simp_all
  | ifElse hrest => cases h' <;> simp_all
  | whileLoop hrest => cases h' <;> simp_all
  | doWhile hrest => cases h' <;> simp_all
  | repeatLoop hrest => cases h' <;> simp_all

/-- A step does not halt at a stack that has a turn before it, unless no turn is left. -/
theorem Turn.not_halt (h : Turn limits p w a b) :
    ¬ Halt limits p w (left + 1) a result stack' after := by
  intro hhalt
  cases h with
  | call hrest hroom hq =>
    cases hhalt with
    | overflow hrest' hfull => exact absurd hroom (Nat.not_lt_of_le hfull)
    | acted hrest' _ => simp [hrest] at hrest'
    | failed hrest' _ => simp [hrest] at hrest'
    | missing hrest' _ hq' =>
      rw [hrest] at hrest'
      cases hrest'
      simp [hq] at hq'
  | _ => cases hhalt <;> simp_all

/-- Only one row of turns leads from a stack to a halt. -/
theorem Turns.halt_unique (h : Turns limits p w k a b)
    (hhalt : Halt limits p w (left + 1) b result stack after)
    (h' : Turns limits p w m a c)
    (hhalt' : Halt limits p w (left' + 1) c result' stack' after') : k = m ∧ b = c := by
  induction h generalizing m with
  | refl a =>
    cases h' with
    | refl _ => exact ⟨rfl, rfl⟩
    | head hturn _ => exact absurd hhalt hturn.not_halt
  | head hturn _ ih =>
    cases h' with
    | refl _ => exact absurd hhalt' hturn.not_halt
    | head hturn' later' =>
      obtain rfl := hturn.unique hturn'
      obtain ⟨rfl, rfl⟩ := ih hhalt later'
      exact ⟨rfl, rfl⟩

end GridRobot
