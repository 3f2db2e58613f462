import GridRobot.Proofs.Run.Safety

/-!
# What the steps of a run come to

A step of a run that has not ended says by its result whether the run has ended with it. So the trace
of a run grows by one step after the other until the first result that ends the run.

## Main definitions

* `Run.stepAfter` is the step that follows a number of steps.

## Main statements

* `World.perform_eq_error`: which actions may fail, and with which fault.
* `Run.Linked.step_running`: what a step of a linked run comes to that has not ended.
* `Run.Linked.trace_succ`: the trace goes on as long as the run has not ended.
* `Run.continued_of_mem_dropLast`: only the last result of a trace ends the run.
-/

namespace GridRobot

variable {limits : Limits} {p : Program} {w after : World}

/-- Three actions may fail, each for a reason of its own. -/
theorem World.perform_eq_error {a : Action} {kind : FaultKind} (h : w.perform a = .error kind) :
    a = .move ∧ kind = .blockedByWall ∨ a = .putBeeper ∧ kind = .noBeeperToPutDown ∨
      a = .pickBeeper ∧ kind = .noBeeperToPickUp := by
  cases a with
  | move =>
    simp only [perform, move] at h
    split at h <;> cases h
    exact .inl ⟨rfl, rfl⟩
  | turnLeft => cases h
  | turnRight => cases h
  | putBeeper =>
    simp only [perform, putBeeper] at h
    split at h <;> cases h
    exact .inr (.inl ⟨rfl, rfl⟩)
  | pickBeeper =>
    simp only [perform, pickBeeper] at h
    split at h <;> cases h
    exact .inr (.inr ⟨rfl, rfl⟩)

theorem World.perform_error_ne {a : Action} {kind : FaultKind} (h : w.perform a = .error kind) :
    kind ≠ .alreadyTerminated := by
  obtain ⟨-, rfl⟩ | ⟨-, rfl⟩ | ⟨-, rfl⟩ := World.perform_eq_error h
  · decide
  · decide
  · decide

/-- A result that is not about a run which ended earlier. -/
def StepResult.Timely (x : StepResult) : Prop :=
  ∀ line, x ≠ .faulted .alreadyTerminated line

theorem StepResult.timely_fault {f : Fault} :
    StepResult.Timely (.fault f) ↔ f.kind ≠ .alreadyTerminated := by
  obtain ⟨kind, line⟩ := f
  simp [StepResult.Timely, StepResult.faulted]

theorem World.act_timely {a : Action} {line : Option Int} : (w.act a line).1.Timely := by
  unfold World.act
  cases h : w.perform a with
  | ok after => exact nofun
  | error kind => exact StepResult.timely_fault.2 (World.perform_error_ne h)

theorem Halt.timely {left : Nat} {stack stack' : List Frame} {x : StepResult}
    (h : Halt limits p w left stack (.ok x) stack' after) : x.Timely := by
  cases h with
  | finished => exact nofun
  | acted => exact nofun
  | failed _ ha => exact StepResult.timely_fault.2 (World.perform_error_ne ha)
  | overflow => exact StepResult.timely_fault.2 nofun
  | stalled => exact StepResult.timely_fault.2 nofun

theorem Advance.timely {turns : Nat} {stack stack' : List Frame}
    {result : Except MissingProcedure StepResult} {x : StepResult}
    (h : Advance limits p w turns stack result stack' after) (hok : result = .ok x) :
    x.Timely := by
  induction h with
  | halt h =>
    subst hok
    exact h.timely
  | turn _ _ ih => exact ih hok

namespace Run

variable {r : Run}

/-- A step of a linked run that has not ended comes to a result, leaves the run linked, and ends the
run exactly if its result is not that the run goes on. -/
theorem Linked.step_running (h : r.Linked) (hrun : r.status = .running) (limits : Limits)
    (w : World) :
    ∃ x, (r.step limits w).result = .ok x ∧ x.Timely ∧ (r.step limits w).run.Linked ∧
      ((r.step limits w).run.status = .running ↔ x = .continued) := by
  obtain ⟨result, stack', after, hadv, hout⟩ := step_spec limits w hrun
  obtain ⟨⟨x, rfl⟩, _⟩ := hadv.stackLinked h.program h.stack
  have hlinked := (h.step limits w).2
  rw [hout] at hlinked ⊢
  refine ⟨x, rfl, hadv.timely rfl, hlinked, ?_⟩
  cases x with
  | continued => simp [finishStep, hrun]
  | finished => simp [finishStep]
  | fault f => simp [finishStep]

/-- The step that follows so many steps. -/
def stepAfter (limits : Limits) (r : Run) (w : World) (n : Nat) : Stepped :=
  (r.after limits w n).1.step limits (r.after limits w n).2

theorem after_succ (limits : Limits) (r : Run) (w : World) (n : Nat) :
    r.after limits w (n + 1) =
      ((r.stepAfter limits w n).run, (r.stepAfter limits w n).world) := by
  induction n generalizing r w with
  | zero => rfl
  | succ n ih => exact ih (r.step limits w).run (r.step limits w).world

/-- A run that has not ended after some steps had not ended before them. -/
theorem running_of_after {n : Nat}
    (hrun : (r.after limits w n).1.status = .running) : r.status = .running := by
  by_contra hended
  have hsame : ∀ n, r.after limits w n = (r, w) := by
    intro n
    have hstep := step_of_ended limits w hended
    induction n with
    | zero => rfl
    | succ n ih => rw [Run.after, hstep, ih]
  rw [hsame n] at hrun
  exact hended hrun

/-- The trace of a run grows by the step that follows, as long as the run has not ended. -/
theorem Linked.trace_succ (h : r.Linked) {n : Nat}
    (hrun : (r.after limits w n).1.status = .running) :
    r.trace limits w (n + 1) = r.trace limits w n ++ [r.stepAfter limits w n] := by
  induction n generalizing r w with
  | zero => simp [trace, stepAfter, Run.after]
  | succ n ih =>
    have hlater : ((r.step limits w).run.after limits (r.step limits w).world n).1.status =
        .running := hrun
    have hlinked := (h.step limits w).2
    obtain ⟨x, hx, _, _, hgoes⟩ := h.step_running (running_of_after hrun) limits w
    obtain rfl := hgoes.1 (running_of_after hlater)
    have htrace (m : Nat) : r.trace limits w (m + 1) =
        r.step limits w :: (r.step limits w).run.trace limits (r.step limits w).world m := by
      simp [trace, goesOn, hx]
    rw [htrace (n + 1), htrace n, ih hlinked hlater, List.cons_append]
    rfl

/-- All results of a trace but the last leave the run going on. -/
theorem continued_of_mem_dropLast {n : Nat} {s : Stepped}
    (hs : s ∈ (r.trace limits w n).dropLast) : s.result = .ok .continued := by
  induction n generalizing r w with
  | zero => simp [trace] at hs
  | succ n ih =>
    rw [trace] at hs
    cases hgo : goesOn (r.step limits w) with
    | false => simp [hgo] at hs
    | true =>
      have hfirst : (r.step limits w).result = .ok .continued := by
        unfold goesOn at hgo
        split at hgo
        · assumption
        · cases hgo
      simp only [hgo, if_true] at hs
      rcases hrest : (r.step limits w).run.trace limits (r.step limits w).world n with _ | ⟨t, later⟩
      · simp [hrest] at hs
      · rw [hrest, List.dropLast_cons_cons] at hs
        rcases List.mem_cons.1 hs with rfl | hlater
        · exact hfirst
        · rw [← hrest] at hlater
          exact ih hlater

end Run

end GridRobot
