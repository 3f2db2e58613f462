import GridRobot.Proofs.Program.Relined
import GridRobot.Proofs.Reading
import GridRobot.Proofs.Run.Outcome

/-!
# Runs do not look at lines

A run tells the line of a statement when it fails, and looks at no line for anything else. So a run
of a program with other lines is the same run with other lines, step by step: each turn is the same
turn and each halt the same halt, with each line that it tells replaced in the same way.

## Main definitions

* `Frame.relined`, `Run.relined` and `Stepped.relined` replace the lines of a frame, of a run and of
  what a step comes to.

## Main statements

* `Turn.relined`, `Halt.relined`: turns and halts of a program with other lines.
* `Run.step_relined`: so it is with steps.
* `Run.stepAfter_relined`: and with all the steps of a run.
-/

namespace GridRobot

/-- What a frame was opened for, with other lines. -/
def FrameKind.relined (φ : Int → Int) : FrameKind → FrameKind
  | .procedure => .procedure
  | .block => .block
  | .whileLoop c => .whileLoop (c.relined φ)
  | .doWhile c => .doWhile (c.relined φ)
  | .repeatLoop n => .repeatLoop n

/-- The frame with other lines. -/
def Frame.relined (φ : Int → Int) (f : Frame) : Frame :=
  ⟨f.kind.relined φ, relinedBody φ f.body, relinedBody φ f.rest⟩

/-- The fault with another line. -/
def Fault.relined (φ : Int → Int) (f : Fault) : Fault :=
  ⟨f.kind, f.line.map φ⟩

/-- The result with another line in its fault. -/
def StepResult.relined (φ : Int → Int) : StepResult → StepResult
  | .continued => .continued
  | .finished => .finished
  | .fault f => .fault (f.relined φ)

/-- The run with other lines. -/
def Run.relined (φ : Int → Int) (r : Run) : Run :=
  ⟨r.program.relined φ, r.stack.map (Frame.relined φ), r.status, r.steps,
    r.lastFault.map (Fault.relined φ)⟩

/-- What a step comes to, with other lines. -/
def Stepped.relined (φ : Int → Int) (s : Stepped) : Stepped :=
  ⟨s.result.map (StepResult.relined φ), s.run.relined φ, s.world⟩

variable {φ : Int → Int} {limits : Limits} {p : Program} {w after : World}

/-! ### Frames and stacks -/

section

variable {f : Frame} {s : Statement} {rest body : List Statement} {stack below : List Frame}

theorem Frame.rest_relined_nil (h : f.rest = []) : (f.relined φ).rest = [] := by
  rw [relined, h, relinedBody]

theorem Frame.rest_relined_cons (h : f.rest = s :: rest) :
    (f.relined φ).rest = s.relined φ :: relinedBody φ rest := by
  rw [relined, h, relinedBody]

theorem Frame.atEnd_relined (f : Frame) (w : World) :
    (f.relined φ).atEnd w = (f.atEnd w).map (Frame.relined φ) := by
  obtain ⟨kind, body, rest⟩ := f
  cases kind with
  | procedure => rfl
  | block => rfl
  | whileLoop c =>
    simp only [atEnd, relined, FrameKind.relined, Condition.eval_relined]
    split
    · rfl
    · rfl
  | doWhile c =>
    simp only [atEnd, relined, FrameKind.relined, Condition.eval_relined]
    split
    · rfl
    · rfl
  | repeatLoop n =>
    simp only [atEnd, relined, FrameKind.relined]
    split
    · rfl
    · rfl

theorem Run.push_relined (enter : Bool) (kind : FrameKind) (body : List Statement)
    (stack : List Frame) :
    Run.push enter (kind.relined φ) (relinedBody φ body) (stack.map (Frame.relined φ)) =
      (Run.push enter kind body stack).map (Frame.relined φ) := by
  cases enter with
  | false => rfl
  | true => rfl

theorem callDepth_relined (stack : List Frame) :
    callDepth (stack.map (Frame.relined φ)) = callDepth stack := by
  have hcall : Frame.isCall ∘ Frame.relined φ = Frame.isCall := by
    funext f
    obtain ⟨kind, body, rest⟩ := f
    cases kind <;> rfl
  rw [callDepth, List.countP_map, hcall, callDepth]

theorem nextLine_relined (stack : List Frame) :
    nextLine (stack.map (Frame.relined φ)) = (nextLine stack).map φ := by
  induction stack with
  | nil => rfl
  | cons f below ih =>
    unfold nextLine at ih ⊢
    rw [List.map_cons, List.findSome?_cons, List.findSome?_cons, ih]
    cases hrest : f.rest with
    | nil =>
      rw [Frame.rest_relined_nil hrest]
      rfl
    | cons s rest =>
      rw [Frame.rest_relined_cons hrest]
      simp only [List.head?_cons, Option.map_some, Statement.line_relined]

end

/-! ### Turns and halts -/

theorem Turn.relined {a b : List Frame} (h : Turn limits p w a b) :
    Turn limits (p.relined φ) w (a.map (Frame.relined φ)) (b.map (Frame.relined φ)) := by
  cases h with
  | again hrest hend =>
    have hend' := congrArg (Option.map (Frame.relined φ)) hend
    rw [← Frame.atEnd_relined] at hend'
    exact .again (Frame.rest_relined_nil hrest) hend'
  | leave hrest hend =>
    have hend' := congrArg (Option.map (Frame.relined φ)) hend
    rw [← Frame.atEnd_relined] at hend'
    exact .leave (Frame.rest_relined_nil hrest) hend'
  | @call top below name line rest q hrest hroom hq =>
    rw [← callDepth_relined] at hroom
    have hq' : (p.relined φ).procedure? name = some (q.relined φ) := by
      rw [Program.procedure?_relined, hq, Option.map_some]
    exact .call (Frame.rest_relined_cons hrest) hroom hq'
  | @ifElse top below c t e line rest hrest =>
    have hbranch : (if (c.relined φ).eval w then relinedBody φ t else relinedBody φ e) =
        relinedBody φ (if c.eval w then t else e) := by
      rw [Condition.eval_relined, apply_ite (relinedBody φ)]
    have hturn : Turn limits (p.relined φ) w ((top :: below).map (Frame.relined φ)) _ :=
      .ifElse (Frame.rest_relined_cons hrest)
    rw [hbranch, isEmpty_relinedBody] at hturn
    rw [← Run.push_relined]
    exact hturn
  | @whileLoop top below c body line rest hrest =>
    have hturn : Turn limits (p.relined φ) w ((top :: below).map (Frame.relined φ)) _ :=
      .whileLoop (Frame.rest_relined_cons hrest)
    rw [Condition.eval_relined] at hturn
    rw [← Run.push_relined]
    exact hturn
  | doWhile hrest => exact .doWhile (Frame.rest_relined_cons hrest)
  | @repeatLoop top below n body line rest hrest =>
    have hturn : Turn limits (p.relined φ) w ((top :: below).map (Frame.relined φ)) _ :=
      .repeatLoop (Frame.rest_relined_cons hrest)
    rw [isEmpty_relinedBody] at hturn
    rw [← Run.push_relined]
    exact hturn

theorem Halt.relined {left : Nat} {stack stack' : List Frame}
    {result : Except MissingProcedure StepResult}
    (h : Halt limits p w left stack result stack' after) :
    Halt limits (p.relined φ) w left (stack.map (Frame.relined φ))
      (result.map (StepResult.relined φ)) (stack'.map (Frame.relined φ)) after := by
  cases h with
  | finished => exact .finished left
  | acted hrest ha => exact .acted (Frame.rest_relined_cons hrest) ha
  | failed hrest ha => exact .failed (Frame.rest_relined_cons hrest) ha
  | overflow hrest hfull =>
    rw [← callDepth_relined] at hfull
    exact .overflow (Frame.rest_relined_cons hrest) hfull
  | @missing left top below name line rest hrest hroom hq =>
    rw [← callDepth_relined] at hroom
    have hq' : (p.relined φ).procedure? name = none := by
      rw [Program.procedure?_relined, hq, Option.map_none]
    exact .missing (Frame.rest_relined_cons hrest) hroom hq'
  | stalled top below =>
    have hstalled : Halt limits (p.relined φ) w 0 ((top :: below).map (Frame.relined φ)) _ [] w :=
      .stalled (top.relined φ) (below.map (Frame.relined φ))
    rw [← List.map_cons, nextLine_relined] at hstalled
    exact hstalled

theorem Advance.relined {turns : Nat} {stack stack' : List Frame}
    {result : Except MissingProcedure StepResult}
    (h : Advance limits p w turns stack result stack' after) :
    Advance limits (p.relined φ) w turns (stack.map (Frame.relined φ))
      (result.map (StepResult.relined φ)) (stack'.map (Frame.relined φ)) after := by
  induction h with
  | halt h => exact .halt h.relined
  | turn h _ ih => exact .turn h.relined ih

/-- A fault with another line is a fault of the same kind. -/
theorem Stepped.fault_of_relined {s : Stepped} {kind : FaultKind} {line : Option Int}
    (h : (s.relined φ).result = .ok (.faulted kind line)) :
    ∃ line', s.result = .ok (.faulted kind line') ∧ line = line'.map φ := by
  obtain ⟨x, hx, hsame⟩ := map_eq_ok.1 h
  cases x with
  | continued => cases hsame
  | finished => cases hsame
  | fault f =>
    cases hsame
    exact ⟨f.line, hx, rfl⟩

/-! ### Runs -/

namespace Run

variable {r : Run}

theorem start?_relined : start? (p.relined φ) = (start? p).map (Run.relined φ) := by
  rw [start?, start?, Program.procedure?_relined, Program.relined_entry, Option.map_map,
    Option.map_map]
  rfl

theorem finishStep_relined (r : Run) (stack : List Frame)
    (result : Except MissingProcedure StepResult) :
    (r.relined φ).finishStep (stack.map (Frame.relined φ)) (result.map (StepResult.relined φ)) =
      (r.finishStep stack result).relined φ := by
  cases result with
  | error missing => rfl
  | ok x => cases x <;> rfl

/-- A step of a run with other lines is the same step with other lines. -/
theorem step_relined (limits : Limits) (r : Run) (w : World) :
    (r.relined φ).step limits w = (r.step limits w).relined φ := by
  by_cases hrun : r.status = .running
  · obtain ⟨result, stack', after, hadv, hout⟩ := step_spec limits w hrun
    have hrun' : (r.relined φ).status = .running := hrun
    have hadv' : Advance limits (r.relined φ).program w limits.freeTurns (r.relined φ).stack _ _ _ :=
      hadv.relined
    rw [step_of_running limits w hrun', hadv'.advance_eq, finishStep_relined, hout]
    rfl
  · have hended : (r.relined φ).status ≠ .running := hrun
    rw [step_of_ended limits w hrun, step_of_ended limits w hended]
    rfl

theorem after_relined (limits : Limits) (r : Run) (w : World) (n : Nat) :
    (r.relined φ).after limits w n = ((r.after limits w n).1.relined φ, (r.after limits w n).2) := by
  induction n generalizing r w with
  | zero => rfl
  | succ n ih =>
    rw [after, after, step_relined]
    exact ih (r.step limits w).run (r.step limits w).world

/-- All the steps of a run with other lines are the same steps with other lines. -/
theorem stepAfter_relined (limits : Limits) (r : Run) (w : World) (n : Nat) :
    (r.relined φ).stepAfter limits w n = (r.stepAfter limits w n).relined φ := by
  rw [stepAfter, after_relined, step_relined, stepAfter]

end Run

end GridRobot
