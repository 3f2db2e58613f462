import GridRobot.Proofs.Run.Progress
import GridRobot.Proofs.Run.Stopped
import GridRobot.Proofs.World.Action

/-!
# What a step tries

On its way to an end a step may take up any number of statements, ask any number of conditions and
open any number of frames. Only where it takes up an action does it try to change the world. Here the
actions that a step tries are put on record, pass by pass.

A turn never takes up an action, so the record of a step holds one action at most. If that succeeds,
the run goes on in the world that the action has made. In every other case the world is left as it
was and the run has ended, and then nothing can be made of it any more.

## Main definitions

* `attempt?` is what a pass tries that begins on a stack.
* `Tries` is the record of a step on a stack, and `Run.Tries` that of a step of a run.
* `Stepped.Acted` and `Stepped.Ended` are the two things that a step can make of a run.

## Main statements

* `Tries.unique`: a step has one record.
* `Run.step_records`: what the record of a step has to do with its result.
* `Run.Reaches.eq_of_ended`: a run that has ended stays what it is.
* `Run.closed_step_tries`: a step that goes on has tried one action and done nothing else, and any
  other step has done nothing.
-/

namespace GridRobot

/-- An action that is tried, and what comes of it. -/
structure Attempt where
  action : Action
  outcome : Except FaultKind World

/-- What a pass tries that begins on a stack: the action that it takes up, if it takes up one. -/
def attempt? (w : World) : List Frame → Option Attempt
  | [] => none
  | top :: _ =>
    match top.rest with
    | .action a _ :: _ => some ⟨a, w.perform a⟩
    | _ => none

/-- The record of a step on a stack that may make so many passes: what each of them tries. -/
inductive Tries (limits : Limits) (p : Program) (w : World) :
    Nat → List Frame → List Attempt → Prop where
  /-- No pass is left. -/
  | spent (stack : List Frame) : Tries limits p w 0 stack []
  /-- The pass is a turn, and others follow it. -/
  | turn {passes : Nat} {stack next : List Frame} {later : List Attempt}
      (h : Turn limits p w stack next) (hlater : Tries limits p w passes next later) :
      Tries limits p w (passes + 1) stack ((attempt? w stack).toList ++ later)
  /-- The pass is the last one. -/
  | halt {left : Nat} {stack stack' : List Frame} {result : Except MissingProcedure StepResult}
      {after : World} (h : Halt limits p w (left + 1) stack result stack' after) :
      Tries limits p w (left + 1) stack (attempt? w stack).toList

/-- The record of a step of a run. A run that has ended makes no pass. -/
def Run.Tries (limits : Limits) (r : Run) (w : World) (tried : List Attempt) : Prop :=
  if r.terminated then tried = []
  else GridRobot.Tries limits r.program w limits.freeTurns r.stack tried

/-- What the record of a step has to do with its result and with the world after it. -/
inductive Records (w : World) :
    List Attempt → Except MissingProcedure StepResult → World → Prop where
  | acted {a : Action} {after : World} (ha : w.perform a = .ok after) :
      Records w [⟨a, .ok after⟩] (.ok .continued) after
  | failed {a : Action} {kind : FaultKind} (ha : w.perform a = .error kind) (line : Option Int) :
      Records w [⟨a, .error kind⟩] (.ok (.faulted kind line)) w
  | nothing {result : Except MissingProcedure StepResult} (hstops : result ≠ .ok .continued) :
      Records w [] result w

/-- The step has performed the action: the world is that after it, the action is counted, and the run
goes on. -/
structure Stepped.Acted (s : Stepped) (r : Run) (w : World) (a : Action) : Prop where
  world : w.perform a = .ok s.world
  steps : s.run.steps = r.steps + 1
  running : s.run.status = .running

/-- The step has left the world and the count of actions as they were, and the run has ended: however
it is stepped from now on, that is refused and changes neither the run nor the world. -/
structure Stepped.Ended (s : Stepped) (r : Run) (w : World) : Prop where
  world : s.world = w
  steps : s.run.steps = r.steps
  later : ∀ (limits limits' : Limits) (r' : Run) (w' : World), Run.Reaches limits s.run r' →
    r'.step limits' w' = ⟨.ok (.faulted .alreadyTerminated none), s.run, w'⟩

variable {limits : Limits} {p : Program} {w after : World} {stack stack' next : List Frame}
  {result : Except MissingProcedure StepResult} {tried other : List Attempt} {passes left : Nat}

/-! ### The record of a step -/

/-- A turn takes up no action. -/
theorem Turn.attempt?_eq_none (h : Turn limits p w stack next) : attempt? w stack = none := by
  cases h with
  | again hrest _ => simp [attempt?, hrest]
  | leave hrest _ => simp [attempt?, hrest]
  | call hrest _ _ => simp [attempt?, hrest]
  | ifElse hrest => simp [attempt?, hrest]
  | whileLoop hrest => simp [attempt?, hrest]
  | doWhile hrest => simp [attempt?, hrest]
  | repeatLoop hrest => simp [attempt?, hrest]

/-- From a stack there is one way to go on, so a step has one record. -/
theorem Tries.unique (h : Tries limits p w passes stack tried)
    (h' : Tries limits p w passes stack other) : tried = other := by
  induction h generalizing other with
  | spent stack =>
    cases h' with
    | spent => rfl
  | turn hturn _ ih =>
    cases h' with
    | turn hturn' hlater' =>
      obtain rfl := hturn.unique hturn'
      rw [ih hlater']
    | halt hhalt' => exact absurd hhalt' hturn.not_halt
  | halt hhalt =>
    cases h' with
    | turn hturn' _ => exact absurd hhalt hturn'.not_halt
    | halt _ => rfl

theorem Halt.tries (h : Halt limits p w (left + 1) stack result stack' after)
    (htried : (attempt? w stack).toList = tried) : Tries limits p w (left + 1) stack tried := by
  subst htried
  exact .halt h

/-- The last pass of a step tries the action on which the step halts, if there is one. -/
theorem Halt.records (h : Halt limits p w left stack result stack' after) :
    ∃ tried, Tries limits p w left stack tried ∧ Records w tried result after := by
  cases h with
  | finished left =>
    cases left with
    | zero => exact ⟨[], .spent [], .nothing nofun⟩
    | succ left => exact ⟨[], .halt (.finished _), .nothing nofun⟩
  | acted hrest ha =>
    exact ⟨_, Halt.tries (.acted hrest ha) (by simp [attempt?, hrest, ha]), .acted ha⟩
  | failed hrest ha =>
    exact ⟨_, Halt.tries (.failed hrest ha) (by simp [attempt?, hrest, ha]), .failed ha _⟩
  | overflow hrest hfull =>
    exact ⟨[], Halt.tries (.overflow hrest hfull) (by simp [attempt?, hrest]), .nothing nofun⟩
  | missing hrest hroom hq =>
    exact ⟨[], Halt.tries (.missing hrest hroom hq) (by simp [attempt?, hrest]), .nothing nofun⟩
  | stalled top below => exact ⟨[], .spent _, .nothing nofun⟩

/-- The turns before that add nothing to the record. -/
theorem Advance.records (h : Advance limits p w passes stack result stack' after) :
    ∃ tried, Tries limits p w passes stack tried ∧ Records w tried result after := by
  induction h with
  | halt h => exact h.records
  | turn h _ ih =>
    obtain ⟨tried, htries, hrecords⟩ := ih
    refine ⟨tried, ?_, hrecords⟩
    have hfirst := Tries.turn h htries
    rwa [h.attempt?_eq_none, Option.toList, List.nil_append] at hfirst

theorem Records.continued_iff (h : Records w tried result after) :
    result = .ok .continued ↔ ∃ a after', tried = [⟨a, .ok after'⟩] := by
  cases h with
  | @acted a after _ => exact ⟨fun _ => ⟨a, after, rfl⟩, fun _ => rfl⟩
  | failed _ line => simp [StepResult.faulted]
  | nothing hstops => simp [hstops]

theorem Records.performed {a : Action} {after' : World}
    (h : Records w [⟨a, .ok after'⟩] result after) : after' = after ∧ w.perform a = .ok after := by
  cases h with
  | acted ha => exact ⟨rfl, ha⟩

theorem Records.failed_of_mem (h : Records w tried result after) (hstops : result ≠ .ok .continued)
    {t : Attempt} (ht : t ∈ tried) : ∃ kind, t.outcome = .error kind := by
  cases h with
  | acted _ => exact absurd rfl hstops
  | failed _ _ =>
    rw [List.mem_singleton.1 ht]
    exact ⟨_, rfl⟩
  | nothing _ => cases ht

namespace Run

variable {r r' : Run}

theorem Tries.eq (h : r.Tries limits w tried) (h' : r.Tries limits w other) : tried = other := by
  unfold Run.Tries at h h'
  split at h
  · rename_i hended
    rw [if_pos hended] at h'
    rw [h, h']
  · rename_i hrun
    rw [if_neg hrun] at h'
    exact h.unique h'

/-- Every step of a run has a record, which says whether the step goes on. -/
theorem step_records (limits : Limits) (r : Run) (w : World) :
    ∃ tried, r.Tries limits w tried ∧
      Records w tried (r.step limits w).result (r.step limits w).world := by
  by_cases hrun : r.status = .running
  · obtain ⟨result, stack', after, hadv, hout⟩ := step_spec limits w hrun
    obtain ⟨tried, htries, hrecords⟩ := hadv.records
    refine ⟨tried, ?_, ?_⟩
    · simpa [Run.Tries, terminated, hrun] using htries
    · rw [hout]
      exact hrecords
  · rw [step_of_ended limits w hrun]
    exact ⟨[], by simp [Run.Tries, terminated, hrun], .nothing (by simp [StepResult.faulted])⟩

/-! ### What a step makes of a run -/

/-- A run that has ended stays what it is. -/
theorem Reaches.eq_of_ended (h : Reaches limits r r') (hended : r.status ≠ .running) : r' = r := by
  induction h with
  | refl => rfl
  | step w _ ih => rw [ih, step_of_ended limits w hended]

/-- A step that goes on has performed the action on its record. -/
theorem acted_of_continued (hgo : (r.step limits w).result = .ok .continued) {a : Action}
    (ha : w.perform a = .ok (r.step limits w).world) : (r.step limits w).Acted r w a := by
  have hrun : r.status = .running := by
    by_contra hended
    rw [step_of_ended limits w hended] at hgo
    cases hgo
  have hsteps : (r.step limits w).run.steps =
      r.steps + if goesOn (r.step limits w) then 1 else 0 := step_steps hrun
  rw [if_pos (goesOn_iff.2 hgo)] at hsteps
  exact ⟨ha, hsteps, (step_running_iff hrun).2 (.inl hgo)⟩

/-- A step that comes to any other result leaves the world alone, and the run has ended. -/
theorem Linked.ended_of_stops (h : r.Linked) (hstops : (r.step limits w).result ≠ .ok .continued) :
    (r.step limits w).Ended r w := by
  have hsteps : (r.step limits w).run.steps = r.steps := by
    obtain ⟨hsteps, a, ha⟩ | ⟨hsteps, -⟩ := step_performs limits r w
    · exact absurd (step_world_eq hstops) fun hsame =>
        World.perform_snapshot_ne ha (congrArg World.snapshot hsame)
    · exact hsteps
  have hended : (r.step limits w).run.status ≠ .running := by
    by_cases hrun : r.status = .running
    · obtain ⟨x, hx, -, -, hgoes⟩ := h.step_running hrun limits w
      intro hnext
      rw [hgoes.1 hnext] at hx
      exact hstops hx
    · rwa [step_of_ended limits w hrun]
  refine ⟨step_world_eq hstops, hsteps, fun limits' limits'' r' w' hreach => ?_⟩
  obtain rfl := hreach.eq_of_ended hended
  exact step_of_ended limits'' w' hended

/-- Every step of a run of a closed program comes to a result and has one record. The result is that
the run goes on exactly if one action is on record and it has succeeded; then the step has performed
this action and nothing else. Otherwise no action on record has succeeded, nothing has been done, and
the run has ended. -/
theorem closed_step_tries (hp : p.Closed) :
    ∃ r, Run.start? p = some r ∧ ∀ (earlier : Limits) (r' : Run), Reaches earlier r r' →
      ∀ (limits : Limits) (w : World), ∃ x tried,
        (r'.step limits w).result = .ok x ∧
        (∀ other, r'.Tries limits w other ↔ other = tried) ∧
        (x = .continued ↔ ∃ a after, tried = [⟨a, .ok after⟩]) ∧
        (∀ a after, tried = [⟨a, .ok after⟩] →
          after = (r'.step limits w).world ∧ (r'.step limits w).Acted r' w a) ∧
        (x ≠ .continued →
          (∀ t ∈ tried, ∃ kind, t.outcome = .error kind) ∧ (r'.step limits w).Ended r' w) := by
  obtain ⟨r, hstart, hlinked, -, -⟩ := start?_linked hp.linked
  refine ⟨r, hstart, fun earlier r' hreach limits w => ?_⟩
  have hlinked' := hlinked.reaches hreach
  obtain ⟨x, hx⟩ := (hlinked'.step limits w).1
  obtain ⟨tried, htries, hrecords⟩ := step_records limits r' w
  have hresult : (r'.step limits w).result = .ok .continued ↔ x = .continued := by simp [hx]
  refine ⟨x, tried, hx, fun other => ⟨fun hother => hother.eq htries, ?_⟩,
    hresult.symm.trans hrecords.continued_iff, ?_, ?_⟩
  · rintro rfl
    exact htries
  · rintro a after rfl
    obtain ⟨rfl, ha⟩ := hrecords.performed
    exact ⟨rfl, acted_of_continued (hrecords.continued_iff.2 ⟨a, _, rfl⟩) ha⟩
  · intro hstops
    have hstops' := mt hresult.1 hstops
    exact ⟨fun t ht => hrecords.failed_of_mem hstops' ht, hlinked'.ended_of_stops hstops'⟩

/-- The corridor with its second cell closed off. -/
def shut : World :=
  { corridor with width := 1 }

/-- A robot on patrol opens three frames before it moves. Then the way is shut: the next step makes two
calls and asks every condition in vain, and the run ends. -/
theorem closed_step_tries_patrol :
    Source.patrol.Closed ∧ ∃ r, Run.start? Source.patrol = some r ∧
      (r.step ⟨3, 20⟩ corridor).result = .ok .continued ∧
      (∃ a, r.Tries ⟨3, 20⟩ corridor [⟨a, .ok (r.step ⟨3, 20⟩ corridor).world⟩] ∧
        (r.step ⟨3, 20⟩ corridor).Acted r corridor a) ∧
      ((r.step ⟨3, 20⟩ corridor).run.step ⟨3, 20⟩ shut).result = .ok .finished ∧
      ((r.step ⟨3, 20⟩ corridor).run.step ⟨3, 20⟩ shut).Ended
        (r.step ⟨3, 20⟩ corridor).run shut := by
  have hclosed : Source.patrol.Closed := by decide
  obtain ⟨r, hstart, h⟩ := closed_step_tries hclosed
  have hfirst : (r.step ⟨3, 20⟩ corridor).result = .ok .continued := by
    obtain rfl := Option.some.inj hstart
    rfl
  have hsecond : ((r.step ⟨3, 20⟩ corridor).run.step ⟨3, 20⟩ shut).result = .ok .finished := by
    obtain rfl := Option.some.inj hstart
    rfl
  refine ⟨hclosed, r, hstart, hfirst, ?_, hsecond, ?_⟩
  · obtain ⟨x, tried, hx, htries, hgoes, hacted, -⟩ := h ⟨3, 20⟩ r .refl ⟨3, 20⟩ corridor
    obtain ⟨a, after, rfl⟩ := hgoes.1 (Except.ok.inj (hx.symm.trans hfirst))
    obtain ⟨rfl, hdone⟩ := hacted a after rfl
    exact ⟨a, (htries _).2 rfl, hdone⟩
  · obtain ⟨x, tried, hx, -, -, -, hended⟩ :=
      h ⟨3, 20⟩ _ (.step corridor .refl) ⟨3, 20⟩ shut
    obtain rfl := Except.ok.inj (hx.symm.trans hsecond)
    exact (hended nofun).2

end Run

end GridRobot
