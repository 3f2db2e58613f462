import GridRobot.Run.Machine

/-!
# Turns of a run

A step of a run is a number of free turns and then a halt. Here it is said once what a turn can do
to a stack and what a halt can come to; whatever holds of all turns and halts holds of every step.

## Main definitions

* `Turn` relates a stack to the stack after one free turn.
* `Halt` is how a step ends, and `Advance` a step as a whole.
* `Run.finishStep` is what a halt makes of a run.

## Main statements

* `Advance.advance_eq`: what some turns and a halt come to is what going on comes to.
* `Run.advance_spec`: going on to the next action is some turns and a halt.
* `Run.step_spec`: so is every step of a run that has not come to its end.
-/

namespace GridRobot

/-- The stack after the statement on top of it was taken up. -/
def Frame.over (f : Frame) (rest : List Statement) (below : List Frame) : List Frame :=
  { f with rest := rest } :: below

@[simp] theorem callDepth_over (f : Frame) (rest : List Statement) (below : List Frame) :
    callDepth (f.over rest below) = callDepth (f :: below) := rfl

@[simp] theorem Run.push_false (kind : FrameKind) (body : List Statement) (stack : List Frame) :
    Run.push false kind body stack = stack := rfl

@[simp] theorem Run.push_true (kind : FrameKind) (body : List Statement) (stack : List Frame) :
    Run.push true kind body stack = .enter kind body :: stack := rfl

/-- Only a loop begins its body once more: because its condition holds, or because it has passes
left. -/
theorem Frame.atEnd_cases {f next : Frame} {w : World} (h : f.atEnd w = some next) :
    (∃ c, (f.kind = .whileLoop c ∨ f.kind = .doWhile c) ∧ c.eval w = true ∧
      next = { f with rest := f.body }) ∨
    ∃ n, f.kind = .repeatLoop n ∧ 1 < n ∧
      next = { f with kind := .repeatLoop (n - 1), rest := f.body } := by
  obtain ⟨kind, body, rest⟩ := f
  cases kind with
  | procedure => cases h
  | block => cases h
  | whileLoop c =>
    simp only [Frame.atEnd, Option.ite_none_right_eq_some, Option.some.injEq] at h
    exact .inl ⟨c, .inl rfl, h.1, h.2.symm⟩
  | doWhile c =>
    simp only [Frame.atEnd, Option.ite_none_right_eq_some, Option.some.injEq] at h
    exact .inl ⟨c, .inr rfl, h.1, h.2.symm⟩
  | repeatLoop n =>
    simp only [Frame.atEnd, Option.ite_none_right_eq_some, Option.some.injEq] at h
    exact .inr ⟨n, rfl, h.1, h.2.symm⟩

/-- A frame that is no call has the activations of the stack below it. -/
theorem callDepth_enter {kind : FrameKind} (hkind : kind ≠ .procedure) (body : List Statement)
    (stack : List Frame) : callDepth (.enter kind body :: stack) = callDepth stack := by
  cases kind with
  | procedure => exact absurd rfl hkind
  | _ => rfl

/-- One free turn of a run in a world. -/
inductive Turn (limits : Limits) (p : Program) (w : World) : List Frame → List Frame → Prop where
  /-- A loop begins its body once more. -/
  | again {top next : Frame} {below : List Frame} (hrest : top.rest = [])
      (hend : top.atEnd w = some next) : Turn limits p w (top :: below) (next :: below)
  /-- A body is through. -/
  | leave {top : Frame} {below : List Frame} (hrest : top.rest = [])
      (hend : top.atEnd w = none) : Turn limits p w (top :: below) below
  | call {top : Frame} {below : List Frame} {name : String} {line : Int} {rest : List Statement}
      {q : Procedure} (hrest : top.rest = .call name line :: rest)
      (hroom : callDepth (top :: below) < limits.callDepth) (hq : p.procedure? name = some q) :
      Turn limits p w (top :: below) (.enter .procedure q.body :: top.over rest below)
  | ifElse {top : Frame} {below : List Frame} {c : Condition} {t e : List Statement} {line : Int}
      {rest : List Statement} (hrest : top.rest = .ifElse c t e line :: rest) :
      Turn limits p w (top :: below)
        (Run.push (!(if c.eval w then t else e).isEmpty) .block (if c.eval w then t else e)
          (top.over rest below))
  | whileLoop {top : Frame} {below : List Frame} {c : Condition} {body : List Statement}
      {line : Int} {rest : List Statement} (hrest : top.rest = .whileLoop c body line :: rest) :
      Turn limits p w (top :: below)
        (Run.push (c.eval w) (.whileLoop c) body (top.over rest below))
  | doWhile {top : Frame} {below : List Frame} {c : Condition} {body : List Statement}
      {line : Int} {rest : List Statement} (hrest : top.rest = .doWhile body c line :: rest) :
      Turn limits p w (top :: below) (Run.push true (.doWhile c) body (top.over rest below))
  | repeatLoop {top : Frame} {below : List Frame} {n : Int} {body : List Statement} {line : Int}
      {rest : List Statement} (hrest : top.rest = .repeatLoop n body line :: rest) :
      Turn limits p w (top :: below)
        (Run.push (0 < n && !body.isEmpty) (.repeatLoop n.toNat) body (top.over rest below))

/-- How a step ends that has so many free turns left: on which stack, with which result, and which
stack and world it leaves. -/
inductive Halt (limits : Limits) (p : Program) (w : World) :
    Nat → List Frame → Except MissingProcedure StepResult → List Frame → World → Prop where
  | finished (left : Nat) : Halt limits p w left [] (.ok .finished) [] w
  | acted {left : Nat} {top : Frame} {below : List Frame} {a : Action} {line : Int}
      {rest : List Statement} {after : World} (hrest : top.rest = .action a line :: rest)
      (ha : w.perform a = .ok after) :
      Halt limits p w (left + 1) (top :: below) (.ok .continued) (top.over rest below) after
  | failed {left : Nat} {top : Frame} {below : List Frame} {a : Action} {line : Int}
      {rest : List Statement} {kind : FaultKind} (hrest : top.rest = .action a line :: rest)
      (ha : w.perform a = .error kind) :
      Halt limits p w (left + 1) (top :: below) (.ok (.faulted kind (some line))) [] w
  | overflow {left : Nat} {top : Frame} {below : List Frame} {name : String} {line : Int}
      {rest : List Statement} (hrest : top.rest = .call name line :: rest)
      (hfull : limits.callDepth ≤ callDepth (top :: below)) :
      Halt limits p w (left + 1) (top :: below) (.ok (.faulted .stackOverflow (some line))) [] w
  | missing {left : Nat} {top : Frame} {below : List Frame} {name : String} {line : Int}
      {rest : List Statement} (hrest : top.rest = .call name line :: rest)
      (hroom : callDepth (top :: below) < limits.callDepth) (hq : p.procedure? name = none) :
      Halt limits p w (left + 1) (top :: below) (.error ⟨name⟩) (top.over rest below) w
  /-- The free turns are used up. -/
  | stalled (top : Frame) (below : List Frame) :
      Halt limits p w 0 (top :: below)
        (.ok (.faulted .noProgress (nextLine (top :: below)))) [] w

/-- A step with so many free turns on a stack: turns, and in the end a halt. -/
inductive Advance (limits : Limits) (p : Program) (w : World) :
    Nat → List Frame → Except MissingProcedure StepResult → List Frame → World → Prop where
  | halt {left : Nat} {stack stack' : List Frame} {result : Except MissingProcedure StepResult}
      {after : World} (h : Halt limits p w left stack result stack' after) :
      Advance limits p w left stack result stack' after
  | turn {turns : Nat} {stack next stack' : List Frame}
      {result : Except MissingProcedure StepResult} {after : World}
      (h : Turn limits p w stack next)
      (later : Advance limits p w turns next result stack' after) :
      Advance limits p w (turns + 1) stack result stack' after

namespace Run

/-- A run after a step that left a stack and came to a result. -/
def finishStep (r : Run) (stack : List Frame) : Except MissingProcedure StepResult → Run
  | .ok .continued => { r with stack := stack, steps := r.steps + 1 }
  | .ok .finished => { r with stack := stack, status := .finished }
  | .ok (.fault f) => { r with stack := stack, status := .faulted, lastFault := some f }
  | .error _ => { r with stack := stack }

@[simp] theorem finishStep_program (r : Run) (stack : List Frame)
    (result : Except MissingProcedure StepResult) :
    (r.finishStep stack result).program = r.program := by
  rcases result with _ | (_ | _ | _) <;> rfl

@[simp] theorem finishStep_stack (r : Run) (stack : List Frame)
    (result : Except MissingProcedure StepResult) :
    (r.finishStep stack result).stack = stack := by
  rcases result with _ | (_ | _ | _) <;> rfl

end Run

variable {limits : Limits} {p : Program} {r : Run} {w after : World}

/-- Going on with a stack is a turn, and going on with the stack after it. -/
theorem Turn.advance_eq {a b : List Frame} (h : Turn limits r.program w a b) (turns : Nat) :
    Run.advance limits r w (turns + 1) a = Run.advance limits r w turns b := by
  cases h with
  | again hrest hend => simp only [Run.advance, hrest, hend]
  | leave hrest hend => simp only [Run.advance, hrest, hend]
  | @call top below name line rest q hrest hroom hq =>
    have hopen : ¬ limits.callDepth ≤ callDepth ({ top with rest := rest } :: below) :=
      Nat.not_le_of_lt hroom
    simp only [Run.advance, hrest, if_neg hopen, hq]
    rfl
  | ifElse hrest =>
    simp only [Run.advance, hrest]
    rfl
  | whileLoop hrest =>
    simp only [Run.advance, hrest]
    rfl
  | doWhile hrest =>
    simp only [Run.advance, hrest]
    rfl
  | repeatLoop hrest =>
    simp only [Run.advance, hrest]
    rfl

theorem Halt.advance_eq {left : Nat} {stack stack' : List Frame}
    {result : Except MissingProcedure StepResult}
    (h : Halt limits r.program w left stack result stack' after) :
    Run.advance limits r w left stack = ⟨result, r.finishStep stack' result, after⟩ := by
  cases h with
  | finished left => cases left <;> rfl
  | acted hrest ha =>
    simp only [Run.advance, hrest, ha]
    rfl
  | failed hrest ha =>
    simp only [Run.advance, hrest, ha]
    rfl
  | @overflow left top below name line rest hrest hfull =>
    have hclosed : limits.callDepth ≤ callDepth ({ top with rest := rest } :: below) := hfull
    simp only [Run.advance, hrest, if_pos hclosed]
    rfl
  | @missing left top below name line rest hrest hroom hq =>
    have hopen : ¬ limits.callDepth ≤ callDepth ({ top with rest := rest } :: below) :=
      Nat.not_le_of_lt hroom
    simp only [Run.advance, hrest, if_neg hopen, hq]
    rfl
  | stalled => rfl

/-- What some turns and a halt come to is what going on comes to. -/
theorem Advance.advance_eq {turns : Nat} {stack stack' : List Frame}
    {result : Except MissingProcedure StepResult}
    (h : Advance limits r.program w turns stack result stack' after) :
    Run.advance limits r w turns stack = ⟨result, r.finishStep stack' result, after⟩ := by
  induction h with
  | halt h => exact h.advance_eq
  | turn h _ ih => rw [h.advance_eq, ih]

/-- Every stack has a turn or a halt before it, and as the free turns are used up, a halt in the
end. -/
theorem advance_total (limits : Limits) (p : Program) (w : World) (turns : Nat)
    (stack : List Frame) :
    ∃ result stack' after, Advance limits p w turns stack result stack' after := by
  -- a turn comes first, and then what the induction says of the stack after it
  have turn_first {turns : Nat} {a b : List Frame} (h : Turn limits p w a b)
      (ih : ∃ result stack' after, Advance limits p w turns b result stack' after) :
      ∃ result stack' after, Advance limits p w (turns + 1) a result stack' after := by
    obtain ⟨result, stack', after, hadv⟩ := ih
    exact ⟨result, stack', after, .turn h hadv⟩
  induction turns generalizing stack with
  | zero =>
    cases stack with
    | nil => exact ⟨_, _, _, .halt (.finished 0)⟩
    | cons top below => exact ⟨_, _, _, .halt (.stalled top below)⟩
  | succ turns ih =>
    cases stack with
    | nil => exact ⟨_, _, _, .halt (.finished _)⟩
    | cons top below =>
      rcases hrest : top.rest with _ | ⟨s, rest⟩
      · rcases hend : top.atEnd w with _ | next
        · exact turn_first (.leave hrest hend) (ih _)
        · exact turn_first (.again hrest hend) (ih _)
      · cases s with
        | action a line =>
          rcases ha : w.perform a with kind | after
          · exact ⟨_, _, _, .halt (.failed hrest ha)⟩
          · exact ⟨_, _, _, .halt (.acted hrest ha)⟩
        | call name line =>
          by_cases hfull : limits.callDepth ≤ callDepth (top :: below)
          · exact ⟨_, _, _, .halt (.overflow hrest hfull)⟩
          · have hroom := Nat.lt_of_not_le hfull
            rcases hq : p.procedure? name with _ | q
            · exact ⟨_, _, _, .halt (.missing hrest hroom hq)⟩
            · exact turn_first (.call hrest hroom hq) (ih _)
        | ifElse c t e line => exact turn_first (.ifElse hrest) (ih _)
        | whileLoop c body line => exact turn_first (.whileLoop hrest) (ih _)
        | doWhile body c line => exact turn_first (.doWhile hrest) (ih _)
        | repeatLoop n body line => exact turn_first (.repeatLoop hrest) (ih _)

namespace Run

variable (limits w)

/-- Going on to the next action comes to some turns and a halt. -/
theorem advance_spec (turns : Nat) (stack : List Frame) :
    ∃ result stack' after, Advance limits r.program w turns stack result stack' after ∧
      advance limits r w turns stack = ⟨result, r.finishStep stack' result, after⟩ := by
  obtain ⟨result, stack', after, hadv⟩ := advance_total limits r.program w turns stack
  exact ⟨result, stack', after, hadv, hadv.advance_eq⟩

theorem step_of_running (hrun : r.status = .running) :
    r.step limits w = advance limits r w limits.freeTurns r.stack := by
  simp [step, terminated, hrun]

/-- So does every step of a run that has not come to its end. -/
theorem step_spec (hrun : r.status = .running) :
    ∃ result stack' after,
      Advance limits r.program w limits.freeTurns r.stack result stack' after ∧
        r.step limits w = ⟨result, r.finishStep stack' result, after⟩ := by
  rw [step_of_running limits w hrun]
  exact advance_spec limits w limits.freeTurns r.stack

theorem step_of_ended (hended : r.status ≠ .running) :
    r.step limits w = ⟨.ok (.faulted .alreadyTerminated none), r, w⟩ := by
  simp [step, terminated, hended]

end Run

end GridRobot
