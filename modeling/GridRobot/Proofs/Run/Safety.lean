import GridRobot.Proofs.Program.Linked
import GridRobot.Proofs.Run.Turn
import GridRobot.Run.Trace

/-!
# Runs of linked programs

A run of a linked program never calls a procedure that is not there. What a step needs for that is
that every frame on the stack holds only statements whose calls the program knows; turns keep it.

## Main definitions

* `StackLinked` says that the program knows all calls on a stack.
* `Run.Linked` says so of a run and its program.

## Main statements

* `Turn.stackLinked`: a turn keeps a stack linked.
* `Run.Linked.step`: a step of a linked run comes to a result, and leaves the run linked.
* `Run.Linked.after`: so it is after any number of steps.
-/

namespace GridRobot

/-- The program knows all calls in the bodies on a stack. -/
def StackLinked (p : Program) (stack : List Frame) : Prop :=
  ∀ f ∈ stack, p.Knows f.body ∧ p.Knows f.rest

variable {limits : Limits} {p : Program} {w : World}

theorem stackLinked_cons {f : Frame} {below : List Frame} :
    StackLinked p (f :: below) ↔ (p.Knows f.body ∧ p.Knows f.rest) ∧ StackLinked p below := by
  simp [StackLinked]

/-- A frame that begins its body once more has the body it had. -/
theorem Frame.atEnd_body {f next : Frame} (h : f.atEnd w = some next) :
    next.body = f.body ∧ next.rest = f.body := by
  obtain ⟨c, _, _, rfl⟩ | ⟨n, _, _, rfl⟩ := Frame.atEnd_cases h
  · exact ⟨rfl, rfl⟩
  · exact ⟨rfl, rfl⟩

theorem StackLinked.push {enter : Bool} {kind : FrameKind} {body : List Statement}
    {stack : List Frame} (h : StackLinked p stack) (hb : p.Knows body) :
    StackLinked p (Run.push enter kind body stack) := by
  cases enter
  · exact h
  · exact stackLinked_cons.2 ⟨⟨hb, hb⟩, h⟩

theorem StackLinked.over {s : Statement} {rest : List Statement} {top : Frame}
    {below : List Frame} (h : StackLinked p (top :: below)) (hrest : top.rest = s :: rest) :
    StackLinked p (top.over rest below) := by
  obtain ⟨⟨hbody, hknows⟩, hbelow⟩ := stackLinked_cons.1 h
  rw [hrest] at hknows
  exact stackLinked_cons.2 ⟨⟨hbody, hknows.tail⟩, hbelow⟩

theorem StackLinked.topRest {s : Statement} {rest : List Statement} {top : Frame}
    {below : List Frame} (h : StackLinked p (top :: below)) (hrest : top.rest = s :: rest) :
    p.Knows (s :: rest) := by
  rw [← hrest]
  exact (stackLinked_cons.1 h).1.2

/-- A turn keeps a stack linked. -/
theorem Turn.stackLinked (hp : p.Linked) {a b : List Frame} (h : Turn limits p w a b)
    (ha : StackLinked p a) : StackLinked p b := by
  cases h with
  | again hrest hend =>
    obtain ⟨⟨hbody, _⟩, hbelow⟩ := stackLinked_cons.1 ha
    obtain ⟨hb, hr⟩ := Frame.atEnd_body hend
    exact stackLinked_cons.2 ⟨⟨hb ▸ hbody, hr ▸ hbody⟩, hbelow⟩
  | leave hrest hend => exact (stackLinked_cons.1 ha).2
  | call hrest hroom hq =>
    have hknows := hp.calls _ (Program.procedure?_mem hq)
    exact stackLinked_cons.2 ⟨⟨hknows, hknows⟩, ha.over hrest⟩
  | ifElse hrest => exact (ha.over hrest).push ((ha.topRest hrest).ifElse _)
  | whileLoop hrest => exact (ha.over hrest).push (ha.topRest hrest).whileLoop
  | doWhile hrest => exact (ha.over hrest).push (ha.topRest hrest).doWhile
  | repeatLoop hrest => exact (ha.over hrest).push (ha.topRest hrest).repeatLoop

/-- On a linked stack a halt comes to a result, and it leaves a linked stack. -/
theorem Halt.stackLinked {left : Nat} {stack stack' : List Frame}
    {result : Except MissingProcedure StepResult} {after : World}
    (h : Halt limits p w left stack result stack' after) (hs : StackLinked p stack) :
    (∃ x, result = .ok x) ∧ StackLinked p stack' := by
  have hnil : StackLinked p [] := by simp [StackLinked]
  cases h with
  | finished => exact ⟨⟨_, rfl⟩, hnil⟩
  | acted hrest ha => exact ⟨⟨_, rfl⟩, hs.over hrest⟩
  | failed hrest ha => exact ⟨⟨_, rfl⟩, hnil⟩
  | overflow hrest hfull => exact ⟨⟨_, rfl⟩, hnil⟩
  | missing hrest hroom hq =>
    have hsome := (hs.topRest hrest).call
    simp [hq] at hsome
  | stalled => exact ⟨⟨_, rfl⟩, hnil⟩

theorem Advance.stackLinked (hp : p.Linked) {turns : Nat} {stack stack' : List Frame}
    {result : Except MissingProcedure StepResult} {after : World}
    (h : Advance limits p w turns stack result stack' after) (hs : StackLinked p stack) :
    (∃ x, result = .ok x) ∧ StackLinked p stack' := by
  induction h with
  | halt h => exact h.stackLinked hs
  | turn h _ ih => exact ih (h.stackLinked hp hs)

namespace Run

/-- The program of a run is linked, and knows all calls on the stack. -/
structure Linked (r : Run) : Prop where
  program : r.program.Linked
  stack : StackLinked r.program r.stack

/-- A run of a linked program begins with the body of its entry, and it is linked. -/
theorem start?_entry (hp : p.Linked) :
    ∃ entry, p.procedure? p.entry = some entry ∧
      Run.start? p = some ⟨p, [.enter .procedure entry.body], .running, 0, none⟩ ∧
      Run.Linked ⟨p, [.enter .procedure entry.body], .running, 0, none⟩ := by
  obtain ⟨entry, hentry⟩ := Option.isSome_iff_exists.1 hp.entry
  have hknows := hp.calls entry (Program.procedure?_mem hentry)
  refine ⟨entry, hentry, by simp [start?, hentry], hp, ?_⟩
  exact stackLinked_cons.2 ⟨⟨hknows, hknows⟩, by simp [StackLinked]⟩

theorem start?_linked (hp : p.Linked) :
    ∃ r, Run.start? p = some r ∧ r.Linked ∧ r.program = p ∧ r.status = .running := by
  obtain ⟨entry, -, hstart, hlinked⟩ := start?_entry hp
  exact ⟨_, hstart, hlinked, rfl, rfl⟩

/-- A step of a linked run comes to a result, and leaves the run linked. -/
theorem Linked.step {r : Run} (h : r.Linked) (limits : Limits) (w : World) :
    (∃ x, (r.step limits w).result = .ok x) ∧ (r.step limits w).run.Linked := by
  by_cases hrun : r.status = .running
  · obtain ⟨result, stack', after, hadv, hout⟩ := step_spec limits w hrun
    obtain ⟨hok, hstack⟩ := hadv.stackLinked h.program h.stack
    rw [hout]
    refine ⟨hok, by simpa using h.program, ?_⟩
    simpa using hstack
  · rw [step_of_ended limits w hrun]
    exact ⟨⟨_, rfl⟩, h⟩

theorem Linked.after {r : Run} (h : r.Linked) (limits : Limits) (w : World) (n : Nat) :
    (r.after limits w n).1.Linked := by
  induction n generalizing r w with
  | zero => exact h
  | succ n ih => exact ih (h.step limits w).2 _

end Run

end GridRobot
