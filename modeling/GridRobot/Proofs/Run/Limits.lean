import GridRobot.Proofs.Run.Outcome

/-!
# Greater limits

The limits of a run are only asked whether a call has room and whether a free turn is left. Where
both were so, they are so under greater limits. So the turns of a step stay the same turns, and its
halt stays the same halt unless a limit was what it halted at.

## Main definitions

* `Stepped.cutShort` says that a step ended the run because a limit was reached.

## Main statements

* `Turn.mono`, `Halt.mono`, `Advance.mono`: turns and halts under greater limits.
* `Run.step_mono`: a step that no limit cut short is the same under greater limits.
* `Run.stepAfter_mono`: so are all steps of a run, as long as none is cut short.
-/

namespace GridRobot

/-- Is the result that a limit was reached: open calls, or free turns? -/
def StepResult.cutShort : StepResult → Bool
  | .fault f => f.kind = .stackOverflow || f.kind = .noProgress
  | _ => false

/-- Did a step end the run because a limit was reached? -/
def Stepped.cutShort (s : Stepped) : Bool :=
  s.result.toOption.any StepResult.cutShort

/-- Limits none of which is greater. -/
structure Limits.Below (limits limits' : Limits) : Prop where
  callDepth : limits.callDepth ≤ limits'.callDepth
  freeTurns : limits.freeTurns ≤ limits'.freeTurns

variable {limits limits' : Limits} {p : Program} {w after : World} {stack stack' : List Frame}
  {result : Except MissingProcedure StepResult}

/-- A call that has room has it under greater limits. -/
theorem Turn.mono (hle : limits.callDepth ≤ limits'.callDepth) {a b : List Frame}
    (h : Turn limits p w a b) : Turn limits' p w a b := by
  cases h with
  | again hrest hend => exact .again hrest hend
  | leave hrest hend => exact .leave hrest hend
  | call hrest hroom hq => exact .call hrest (Nat.lt_of_lt_of_le hroom hle) hq
  | ifElse hrest => exact .ifElse hrest
  | whileLoop hrest => exact .whileLoop hrest
  | doWhile hrest => exact .doWhile hrest
  | repeatLoop hrest => exact .repeatLoop hrest

/-- A halt at which no limit was reached is one under greater limits, also with more turns left. -/
theorem Halt.mono (hle : limits.callDepth ≤ limits'.callDepth) {left : Nat}
    (h : Halt limits p w left stack result stack' after)
    (hcut : result.toOption.any StepResult.cutShort = false) (more : Nat) :
    Halt limits' p w (left + more) stack result stack' after := by
  cases h with
  | finished => exact .finished _
  | acted hrest ha =>
    rw [Nat.add_right_comm]
    exact .acted hrest ha
  | failed hrest ha =>
    rw [Nat.add_right_comm]
    exact .failed hrest ha
  | missing hrest hroom hq =>
    rw [Nat.add_right_comm]
    exact .missing hrest (Nat.lt_of_lt_of_le hroom hle) hq
  | overflow hrest hfull => cases hcut
  | stalled top below => cases hcut

theorem Advance.mono (hle : limits.callDepth ≤ limits'.callDepth) {turns : Nat}
    (h : Advance limits p w turns stack result stack' after)
    (hcut : result.toOption.any StepResult.cutShort = false) (more : Nat) :
    Advance limits' p w (turns + more) stack result stack' after := by
  induction h with
  | halt h => exact .halt (h.mono hle hcut more)
  | turn h _ ih =>
    rw [Nat.add_right_comm]
    exact .turn (h.mono hle) (ih hcut)

namespace Run

variable {r : Run}

/-- A step that no limit cut short is the same under greater limits. -/
theorem step_mono (hle : limits.Below limits') (hcut : (r.step limits w).cutShort = false) :
    r.step limits' w = r.step limits w := by
  by_cases hrun : r.status = .running
  · obtain ⟨result, stack', after, hadv, hout⟩ := step_spec limits w hrun
    rw [hout] at hcut
    have hadv' := hadv.mono hle.callDepth hcut (limits'.freeTurns - limits.freeTurns)
    rw [Nat.add_sub_cancel' hle.freeTurns] at hadv'
    rw [step_of_running limits' w hrun, hadv'.advance_eq, hout]
  · rw [step_of_ended limits w hrun, step_of_ended limits' w hrun]

/-- As long as no limit cuts the run short, its steps are the same under greater limits. -/
theorem stepAfter_mono (hle : limits.Below limits') {n : Nat}
    (hcut : ∀ i < n, (r.stepAfter limits w i).cutShort = false) :
    ∀ i < n, r.stepAfter limits' w i = r.stepAfter limits w i := by
  -- the run is where it would be under the smaller limits, so the next step is the same as well
  have hafter (i : Nat) (hi : i ≤ n) : r.after limits' w i = r.after limits w i := by
    induction i with
    | zero => rfl
    | succ i ih =>
      have hstep : r.stepAfter limits' w i = r.stepAfter limits w i := by
        rw [stepAfter, ih (Nat.le_of_succ_le hi)]
        exact step_mono hle (hcut i hi)
      rw [after_succ, after_succ, hstep]
  intro i hi
  rw [stepAfter, hafter i (Nat.le_of_lt hi)]
  exact step_mono hle (hcut i hi)

/-- The limits of a run only cut it short, they never change it: as long as no step of a run of a
closed program reaches one of them, its steps are the same under all greater limits, with the run
and the world that each step leaves. -/
theorem closed_stepAfter_eq (hp : p.Closed) :
    ∃ r, Run.start? p = some r ∧ ∀ limits limits' : Limits, limits.Below limits' →
      ∀ (w : World) (n : Nat), (∀ i < n, (r.stepAfter limits w i).cutShort = false) →
        ∀ i < n, r.stepAfter limits' w i = r.stepAfter limits w i := by
  obtain ⟨r, hstart, _⟩ := start?_linked hp.linked
  refine ⟨r, hstart, ?_⟩
  intro limits limits' hle w n hcut
  exact stepAfter_mono hle hcut

/-- A program that turns right in a procedure of its own, and then left again. -/
def sway : Program :=
  ⟨[⟨"main", [.call "sway" 1, .action .turnLeft 1], 1⟩, ⟨"sway", [.action .turnRight 2], 2⟩],
    "main"⟩

theorem sway_closed : sway.Closed where
  linked := by decide
  namesDiffer := by decide
  ownName := fun _ _ => Program.procedure?_eq_some_iff (by decide)
  noPredicate := by decide
  counts := by decide

theorem closed_stepAfter_eq_sway :
    sway.Closed ∧ ∃ r, Run.start? sway = some r ∧ Limits.Below ⟨2, 4⟩ ⟨3, 9⟩ ∧
      (∀ i < 3, (r.stepAfter ⟨2, 4⟩ ⟨1, 1, .home, [], [], none⟩ i).cutShort = false) ∧
      ∀ i < 3, r.stepAfter ⟨3, 9⟩ ⟨1, 1, .home, [], [], none⟩ i =
        r.stepAfter ⟨2, 4⟩ ⟨1, 1, .home, [], [], none⟩ i := by
  obtain ⟨r, hstart, h⟩ := closed_stepAfter_eq sway_closed
  have hle : Limits.Below ⟨2, 4⟩ ⟨3, 9⟩ := ⟨by decide, by decide⟩
  have hcut : ∀ i < 3, (r.stepAfter ⟨2, 4⟩ ⟨1, 1, .home, [], [], none⟩ i).cutShort = false := by
    obtain rfl := Option.some.inj hstart
    decide
  exact ⟨sway_closed, r, hstart, hle, hcut, h ⟨2, 4⟩ ⟨3, 9⟩ hle _ 3 hcut⟩

end Run

end GridRobot
