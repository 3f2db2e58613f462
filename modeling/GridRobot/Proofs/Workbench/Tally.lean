import GridRobot.Proofs.Workbench.Answered

/-!
# Tallies of actions

A workbench counts every action that its desk reports, and sets its count back when it begins a run.
A tally keeps apart what is counted together there: the actions of the run, and those that are
performed by hand while the run waits for its next step.

## Main definitions

* `Workbench.begun?` is the run that an event begins, and `Workbench.runOf?` the run that an event
  is about.
* `Tally` counts the actions of a run, and those by hand since the run was begun;
  `Workbench.tally` is the tally of a history.
* `Workbench.Counted` says that the workbench has counted as a tally does, and
  `Workbench.Reckoned` what that comes to in an event.

## Main statements

* `Workbench.happen_reckoned`: every event keeps the count.
* `Workbench.through_counted`: every history does.
-/

namespace GridRobot

/-- The actions of a run since it was begun, and the actions by hand since then. -/
structure Tally where
  program : Nat
  hand : Nat
  deriving Repr, DecidableEq

/-! ### Answers of the desk -/

namespace Desk

variable {κ : Type} [DecidableEq κ] {d : Desk κ} {h : Held κ}

/-- A step of the run that is held is answered by its result, and the run has made one more action
if the answer tells of one. -/
theorem Steady.stepOutcome_counts (hd : d.Steady) (hheld : d.scheduler.held = some h) :
    ∃ w, d.worlds.get? h.world = some w ∧
      (∀ x, d.stepOutcome.answer = .result x ↔
        (h.run.step d.scheduler.limits w).result = .ok x) ∧
      (h.run.step d.scheduler.limits w).run.steps =
        h.run.steps + d.stepOutcome.answer.actions ∧
      (∀ h' ∈ d.stepOutcome.desk.scheduler.held,
        h'.run.steps = h.run.steps + d.stepOutcome.answer.actions) ∧
      (d.stepOutcome.answer = .result .finished →
        d.stepOutcome.desk.scheduler.held = none) := by
  obtain ⟨hrun, hsome⟩ := hd.live h hheld
  obtain ⟨w, hw⟩ := Option.isSome_iff_exists.1 hsome
  have hsteps : (h.run.step d.scheduler.limits w).run.steps = h.run.steps +
      if Run.goesOn (h.run.step d.scheduler.limits w) then 1 else 0 := Run.step_steps hrun
  refine ⟨w, hw, ?_⟩
  rw [stepOutcome_spec hheld hw, hsteps]
  rcases hresult : (h.run.step d.scheduler.limits w).result with missing | (_ | _ | f)
  · simp [Run.goesOn, hresult, Answer.actions, Answer.result?, stepped, hsteps]
  · simp [Run.goesOn, hresult, Answer.actions, Answer.result?, stepped, hsteps, Scheduler.settle]
  · simp [Run.goesOn, hresult, Answer.actions, Answer.result?, Scheduler.settle]
  · simp [Run.goesOn, hresult, Answer.actions, Answer.result?, Scheduler.settle]

theorem resume_answer : (d.perform .resume).answer.result? = none ∧
    (d.perform .resume).desk.scheduler.held = d.scheduler.held := by
  simp only [perform, react]
  cases hresume : d.scheduler.resume with
  | error reason => exact ⟨rfl, rfl⟩
  | ok s => exact ⟨rfl, Scheduler.resume_held hresume⟩

theorem action_answer (a : Action) (key : Option κ) :
    (d.perform (.action a key)).answer ≠ .result .finished := by
  cases hallow : d.scheduler.allowAction (d.present key) with
  | error reason => simp [perform, react, hallow]
  | ok k =>
    cases hw : d.worlds.get? k with
    | none => simp [perform, react, act, hallow, hw]
    | some w =>
      cases hperform : w.perform a <;>
        simp [perform, react, act, World.act, StepResult.faulted, hallow, hw, hperform]

end Desk

namespace Workbench

variable {b b' : Workbench} {e : Event} {t : Tally} {h : Held Nat}

/-! ### Tallies -/

/-- The run that the program begins on the world that is shown, if there are both. -/
def fresh? (b : Workbench) : Option (Held Nat) := do
  let p ← b.program?
  let key ← b.desk.present b.shown
  let r ← Run.start? p
  some ⟨r, key⟩

/-- The run that an event begins. -/
def begun? (b : Workbench) : Event → Option (Held Nat)
  | .play => b.fresh?
  | .singleStep => if b.desk.scheduler.suspended?.isSome then none else b.fresh?
  | _ => none

/-- The run that an event is about: the one that it begins, or else the one that is held. -/
def runOf? (b : Workbench) (e : Event) : Option (Held Nat) :=
  (b.begun? e).or b.desk.scheduler.held

/-- What an action by hand came to, if the event is one. -/
def handResult? (b : Workbench) : Event → Option StepResult
  | .manual a => (b.manual a).1
  | _ => none

end Workbench

/-- What is kept of a tally at an event; it begins anew with every run that is begun. -/
def Tally.kept (t : Tally) (b : Workbench) (e : Event) : Tally :=
  if (b.begun? e).isSome then ⟨0, 0⟩ else t

/-- The tally after an event. -/
def Tally.after (t : Tally) (b : Workbench) (e : Event) : Tally where
  program := (t.kept b e).program + if b.stepResult? e = some .continued then 1 else 0
  hand := (t.kept b e).hand + if b.handResult? e = some .continued then 1 else 0

namespace Workbench

variable {b b' : Workbench} {e : Event} {t : Tally} {h : Held Nat}

/-- The tally of a history. -/
def tally [Yaml.Reader] (b : Workbench) (t : Tally) : List Event → Tally
  | [] => t
  | e :: events => (b.happen e).tally (t.after b e) events

/-- The run that is held has made as many actions as the tally has of it, and the workbench has
counted all actions of the tally. -/
structure Counted (t : Tally) (b : Workbench) : Prop where
  steady : b.desk.Steady
  program : ∀ h ∈ b.desk.scheduler.held, h.run.steps = t.program
  steps : b.desk.scheduler.held.isSome → b.steps = t.program + t.hand

theorem Counted.of_free (hsteady : b.desk.Steady) (hheld : b.desk.scheduler.held = none) :
    Counted t b where
  steady := hsteady
  program := by simp [hheld]
  steps := by simp [hheld]

/-- A page that is turned does not matter to the count. -/
theorem Counted.of_newPage (hb : Counted t b) (hpage : b'.newPage = b.newPage) : Counted t b' := by
  have hdesk : b'.desk = b.desk := (congrArg desk hpage :)
  have hsteps : b'.steps = b.steps := (congrArg Workbench.steps hpage :)
  refine ⟨?_, ?_, ?_⟩
  · rw [hdesk]
    exact hb.steady
  · rw [hdesk]
    exact hb.program
  · rw [hdesk, hsteps]
    exact hb.steps

/-- The run that an event is about has made the step that brings it to its end. -/
def Ends (b : Workbench) (e : Event) (actions : Nat) : Prop :=
  ∃ h w, b.runOf? e = some h ∧ b.desk.worlds.get? h.world = some w ∧
    (h.run.step b.desk.scheduler.limits w).result = .ok .finished ∧
    (h.run.step b.desk.scheduler.limits w).run.steps = actions

/-- After an event the workbench has counted as the tally does; if a run came to its end, it is
that of which the tally tells, and the count of all its actions is the last thing that is told. -/
structure Reckoned [Yaml.Reader] (t : Tally) (b : Workbench) (e : Event) : Prop where
  counted : Counted (t.after b e) (b.happen e)
  told : ∀ n, .finished n ∈ b.told e ↔ b.stepResult? e = some .finished ∧
    n = (t.after b e).program + (t.after b e).hand
  last : ∀ n, .finished n ∈ b.told e → ∃ before, b.told e = before ++ [.finished n]
  ends : b.stepResult? e = some .finished → b.Ends e (t.after b e).program
  free : b.stepResult? e = some .finished → (b.happen e).desk.scheduler.held = none

/-! ### Notices of another kind -/

/-- A notice that is not of the end of a run. -/
def Unfinished (n : Notice) : Prop :=
  ∀ steps, n ≠ .finished steps

/-- What is told on the way from one workbench to another is not of the end of a run. -/
def Quiet (b b' : Workbench) : Prop :=
  ∃ ns, b'.notices = b.notices ++ ns ∧ ∀ n ∈ ns, Unfinished n

theorem Quiet.of_eq (h : b'.notices = b.notices) : Quiet b b' :=
  ⟨[], by simp [h], List.forall_mem_nil _⟩

theorem Quiet.trans {b'' : Workbench} (h : Quiet b b') (h' : Quiet b' b'') : Quiet b b'' := by
  obtain ⟨ns, hns, hkind⟩ := h
  obtain ⟨ns', hns', hkind'⟩ := h'
  refine ⟨ns ++ ns', by rw [hns', hns, List.append_assoc], ?_⟩
  intro n hn
  rcases List.mem_append.1 hn with hn | hn
  · exact hkind n hn
  · exact hkind' n hn

theorem Quiet.not_told [Yaml.Reader] (h : Quiet b (b.happen e)) (n : Nat) :
    .finished n ∉ b.told e := by
  obtain ⟨ns, hns, hkind⟩ := h
  rw [told_eq hns]
  exact fun hn => hkind _ hn n rfl

theorem picture_unfinished : ∀ n ∈ b.picture, Unfinished n := by
  unfold picture
  cases b.model? <;> simp [Unfinished]

theorem mem_picture_append {n m : Nat} :
    Notice.finished n ∈ b.picture ++ [.finished m] ↔ n = m := by
  rw [List.mem_append, List.mem_singleton, Notice.finished.injEq]
  exact or_iff_right fun hn => picture_unfinished _ hn n rfl

theorem heard_unfinished {a : Answer} (ha : a ≠ .result .finished) :
    ∀ n ∈ b.heard a, Unfinished n := by
  intro n hn
  cases a with
  | result r =>
    rcases List.mem_append.1 hn with hn | hn
    · exact picture_unfinished n hn
    · cases r with
      | continued => cases hn
      | finished => exact absurd rfl ha
      | fault f =>
        obtain rfl := List.mem_singleton.1 hn
        exact nofun
  | refused reason =>
    obtain rfl := List.mem_singleton.1 hn
    exact nofun
  | done => cases hn
  | limits period limits => cases hn

theorem compile_quiet : Quiet b b.compile.2 := by
  cases hp : b.program? with
  | some p =>
    rw [compile_of_program? hp]
    exact .of_eq rfl
  | none =>
    obtain ⟨-, last, ns, hcompile, herrors⟩ := compile_of_not_program? hp
    refine ⟨ns, by rw [hcompile], ?_⟩
    intro n hn
    obtain ⟨e, rfl⟩ := herrors n hn
    exact nofun

theorem deliver_quiet (a : Arrival) : Quiet b (b.deliver a) := by
  rcases deliver_spec (b := b) a with hsame | ⟨e, hfailed⟩ | ⟨w, hshown⟩
  · exact .of_eq (by rw [hsame])
  · exact ⟨_, by rw [hfailed], by simp [Unfinished]⟩
  · refine ⟨_, by rw [hshown], ?_⟩
    intro n hn
    rcases List.mem_append.1 hn with hn | hn
    · exact picture_unfinished n hn
    · obtain rfl := List.mem_singleton.1 hn
      exact nofun

theorem load_quiet [Yaml.Reader] (files : Files) : Quiet b (b.load files).2 := by
  rcases load_spec (b := b) files with ⟨waiting, hload⟩ | ⟨a, hload⟩
  · exact .of_eq (by rw [hload])
  · rw [hload]
    exact deliver_quiet (b := { b with shown := none }) a

/-! ### Worlds that arrive -/

theorem deliver_counted (hb : Counted t b) (a : Arrival) : Counted t (b.deliver a) := by
  rcases deliver_spec (b := b) a with hsame | ⟨e, hfailed⟩ | ⟨w, hshown⟩
  · rwa [hsame]
  · rw [hfailed]
    exact ⟨hb.steady, hb.program, hb.steps⟩
  · rw [hshown]
    exact ⟨arrived_steady hb.steady w, hb.program, hb.steps⟩

theorem load_counted [Yaml.Reader] (hb : Counted t b) (files : Files) :
    Counted t (b.load files).2 := by
  rcases load_spec (b := b) files with ⟨waiting, hload⟩ | ⟨a, hload⟩
  · rw [hload]
    exact ⟨hb.steady, hb.program, hb.steps⟩
  · rw [hload]
    exact deliver_counted (b := { b with shown := none }) ⟨hb.steady, hb.program, hb.steps⟩ a

theorem Hears.quiet {ready : Workbench} {o : Desk.Outcome Nat} (h : Hears b ready o b')
    (ho : o.answer ≠ .result .finished) : Quiet b b' := by
  obtain ⟨more, hnotices, hmore⟩ := h.notices
  refine ⟨_, hnotices, ?_⟩
  intro n hn
  rcases List.mem_append.1 hn with hn | hn
  · exact heard_unfinished ho n hn
  · rcases hmore with rfl | ⟨rfl, -⟩
    · cases hn
    · exact picture_unfinished n hn

/-! ### Events -/

/-- An event that makes no step and performs nothing by hand. -/
theorem Reckoned.of_quiet [Yaml.Reader] (hstep : b.stepResult? e = none)
    (hhand : b.handResult? e = none)
    (hcounted : Counted (t.kept b e) (b.happen e)) (hquiet : Quiet b (b.happen e)) :
    Reckoned t b e where
  counted := by simpa [Tally.after, hstep, hhand] using hcounted
  told := fun n => by simp [hquiet.not_told, hstep]
  last := fun n hn => absurd hn (hquiet.not_told n)
  ends := by simp [hstep]
  free := by simp [hstep]

/-- An event at which the desk makes a step of the run that the event is about. -/
theorem Reckoned.of_step [Yaml.Reader] (ready : Workbench) {d : Desk Nat} (hd : d.Steady)
    (hheld : d.scheduler.held = some h) (hrun : b.runOf? e = some h)
    (hworlds : d.worlds = b.desk.worlds)
    (hlimits : d.scheduler.limits = b.desk.scheduler.limits)
    (hprogram : h.run.steps = (t.kept b e).program)
    (hsteps : ready.steps = (t.kept b e).program + (t.kept b e).hand)
    (hstep : b.stepResult? e = d.stepOutcome.answer.result?) (hhand : b.handResult? e = none)
    (hhears : Hears b ready d.stepOutcome (b.happen e)) : Reckoned t b e := by
  obtain ⟨w, hw, hresult, hactions, hlater, hfree⟩ := hd.stepOutcome_counts hheld
  have hafter : t.after b e = ⟨(t.kept b e).program + d.stepOutcome.answer.actions,
      (t.kept b e).hand⟩ := by
    simp [Tally.after, hstep, hhand, Answer.actions]
  have hcount : (b.happen e).steps = (t.after b e).program + (t.after b e).hand := by
    rw [hhears.steps, hsteps, hafter]
    simp only
    omega
  obtain ⟨more, hnotices, hmore⟩ := hhears.notices
  -- a result is told after the picture, and nothing is told after it
  have hends (hfinished : d.stepOutcome.answer = .result .finished) :
      b.told e = (ready.answered d.stepOutcome).picture ++
        [.finished ((t.after b e).program + (t.after b e).hand)] := by
    have hnone : more = [] := by
      rcases hmore with hmore | ⟨-, hresult⟩
      · exact hmore
      · simp [hfinished, Answer.result?] at hresult
    rw [told_eq hnotices, hnone, List.append_nil, ← hcount, hhears.steps]
    simp only [heard, hfinished, StepResult.news, answered]
  refine ⟨⟨?_, ?_, ?_⟩, ?_, ?_, ?_, ?_⟩
  · rw [hhears.desk]
    exact hd.stepOutcome (by rw [hheld]; rfl)
  · intro h' hh'
    rw [hhears.desk] at hh'
    rw [hlater h' hh', hprogram, hafter]
  · exact fun _ => hcount
  · intro n
    rw [hstep, Answer.result?_eq_some]
    by_cases hfinished : d.stepOutcome.answer = .result .finished
    · rw [hends hfinished, mem_picture_append, and_iff_right hfinished]
    · simp [hfinished, (hhears.quiet hfinished).not_told]
  · intro n hn
    by_cases hfinished : d.stepOutcome.answer = .result .finished
    · rw [hends hfinished] at hn ⊢
      rw [mem_picture_append.1 hn]
      exact ⟨_, rfl⟩
    · exact absurd hn ((hhears.quiet hfinished).not_told n)
  · intro hfinished
    rw [hstep, Answer.result?_eq_some] at hfinished
    refine ⟨h, w, hrun, hworlds ▸ hw, ?_, ?_⟩
    · rw [← hlimits]
      exact (hresult _).1 hfinished
    · rw [← hlimits, hactions, hprogram, hafter]
  · intro hfinished
    rw [hstep, Answer.result?_eq_some] at hfinished
    rw [hhears.desk]
    exact hfree hfinished

/-! ### Runs that are begun -/

/-- A run that can be begun on the shown world is begun on it. -/
theorem begin_of_fresh? {p : Program} (hp : b.program? = some p) (hfresh : b.fresh? = some h) :
    h.run.steps = 0 ∧ b.desk.scheduler.begin (some p) (b.desk.present b.shown) =
      .ok (b.desk.scheduler.taking h) := by
  simp only [fresh?, hp, Option.bind_eq_bind, Option.bind_some, Option.bind_eq_some_iff,
    Option.some.injEq] at hfresh
  obtain ⟨key, hkey, r, hr, rfl⟩ := hfresh
  exact ⟨(Run.start?_running hr).2, Scheduler.begin_eq_ok.2 ⟨p, key, r, rfl, hkey, hr, rfl⟩⟩

theorem begin_of_not_fresh? {p : Program} (hp : b.program? = some p) (hfresh : b.fresh? = none) :
    ∃ reason,
      b.desk.scheduler.begin (some p) (b.desk.present b.shown) = .error reason := by
  cases hbegin : b.desk.scheduler.begin (some p) (b.desk.present b.shown) with
  | error reason => exact ⟨reason, rfl⟩
  | ok ready =>
    obtain ⟨_, key, r, ⟨⟩, hkey, hr, -⟩ := Scheduler.begin_eq_ok.1 hbegin
    simp [fresh?, hp, hkey, hr] at hfresh

theorem compile_counted (hb : Counted t b) : Counted t b.compile.2 := by
  obtain ⟨reads, last, ns, hcompile⟩ := compile_eq b
  rw [hcompile]
  exact ⟨hb.steady, hb.program, hb.steps⟩

variable [Yaml.Reader]

theorem clear_counted {q : Request Nat} (hb : Counted t b) (hq : q = .stop ∨ q = .reset)
    (name : LooseText) (files : Files) :
    Counted t (load { (b.ask q).2 with worldName := name } files).2 ∧
      Quiet b (load { (b.ask q).2 with worldName := name } files).2 := by
  -- no run is held when the world is asked for
  have hanswer : (b.desk.perform q).answer = .done ∧
      (b.desk.perform q).desk.scheduler.held = none := by
    rcases hq with rfl | rfl <;> exact ⟨rfl, rfl⟩
  have hsteady := hb.steady.perform q
  have hask : Hears b b (b.desk.perform q) (b.ask q).2 := accept_hears b b rfl _
  refine ⟨load_counted (.of_free ?_ ?_) files, .trans ?_ (load_quiet files)⟩
  · show (b.ask q).2.desk.Steady
    rw [hask.desk]
    exact hsteady
  · show (b.ask q).2.desk.scheduler.held = none
    rw [hask.desk]
    exact hanswer.2
  · exact (hask.quiet (by simp [hanswer]) :)

theorem play_reckoned (hb : Counted t b) : Reckoned t b .play := by
  cases hp : b.program? with
  | none =>
    have hplay : b.happen .play = b.compile.2 := play_of_not_program? hp
    have hkept : t.kept b .play = t := by simp [Tally.kept, begun?, fresh?, hp]
    refine .of_quiet rfl rfl ?_ ?_
    · rw [hplay, hkept]
      exact compile_counted hb
    · rw [hplay]
      exact compile_quiet
  | some p =>
    have hplay := play_of_program? hp
    have hhears : Hears b (b.compiled p) _ _ :=
      accept_hears b (b.compiled p) rfl (b.desk.perform (.start (some p) b.shown))
    cases hfresh : b.fresh? with
    | none =>
      obtain ⟨reason, hbegin⟩ := begin_of_not_fresh? hp hfresh
      have hkept : t.kept b .play = t := by simp [Tally.kept, begun?, hfresh]
      rw [Desk.perform_start_of_refused hbegin] at hplay hhears
      refine .of_quiet rfl rfl ?_ ?_
      · show Counted _ b.play.2
        rw [hplay, hkept, accept_spec]
        exact ⟨hb.steady, hb.program, hb.steps⟩
      · show Quiet b b.play.2
        rw [hplay]
        exact hhears.quiet nofun
    | some h =>
      obtain ⟨hnone, hbegin⟩ := begin_of_fresh? hp hfresh
      have hkept : t.kept b .play = ⟨0, 0⟩ := by simp [Tally.kept, begun?, hfresh]
      rw [Desk.perform_start_of_begun hbegin] at hplay hhears
      refine .of_quiet rfl rfl ?_ ?_
      · show Counted _ b.play.2
        rw [hplay, hkept, accept_spec]
        refine ⟨hb.steady.begun .running hbegin, ?_, fun _ => rfl⟩
        rintro _ ⟨⟩
        exact hnone
      · show Quiet b b.play.2
        rw [hplay]
        exact (hhears.quiet nofun :)

theorem nextStep_reckoned (hb : Counted t b) (hheld : b.desk.scheduler.held = some h) :
    Reckoned t b .singleStep := by
  have hsome : b.desk.scheduler.suspended?.isSome := by
    rw [hb.steady.suspended?_eq, hheld]
    rfl
  have hstep := singleStep_of_suspended hsome
  have hperform := Desk.perform_step_of_suspended (p := none) (k := b.shown)
    hb.steady.resting hsome
  have hbegun : b.begun? .singleStep = none := by simp [begun?, hsome]
  have hkept : t.kept b .singleStep = t := by simp [Tally.kept, hbegun]
  refine .of_step b hb.steady.idled hheld ?_ rfl rfl ?_ ?_ ?_ rfl ?_
  · simp [runOf?, hbegun, hheld]
  · rw [hkept]
    exact hb.program h hheld
  · rw [hkept]
    exact hb.steps (by rw [hheld]; rfl)
  · simp only [stepResult?, hstep, ask, accept_spec, hperform]
  · show Hears b b (Desk.stepOutcome _) b.singleStep.2
    rw [hstep, ← hperform]
    exact accept_hears b b rfl _

theorem firstStep_reckoned (hb : Counted t b) (hheld : b.desk.scheduler.held = none) :
    Reckoned t b .singleStep := by
  have hfree : b.desk.scheduler.suspended? = none := hb.steady.suspended?_eq.trans hheld
  have hbegun : b.begun? .singleStep = b.fresh? := by simp [begun?, hfree]
  cases hp : b.program? with
  | none =>
    obtain ⟨hstep, hresult⟩ := singleStep_of_not_program? hfree hp
    have hkept : t.kept b .singleStep = t := by simp [Tally.kept, hbegun, fresh?, hp]
    refine .of_quiet hresult rfl ?_ ?_
    · show Counted _ b.singleStep.2
      rw [hstep, hkept]
      exact compile_counted hb
    · show Quiet b b.singleStep.2
      rw [hstep]
      exact compile_quiet
  | some p =>
    have hstep := singleStep_of_program? hfree hp
    -- the count is set back before the desk is asked, so also if nothing is begun
    let o := b.desk.perform (.step (some p) b.shown)
    have hhears : Hears b { b.compiled p with steps := 0 } o b.singleStep.2 := by
      rw [hstep]
      exact accept_hears b { b.compiled p with steps := 0 } rfl o
    have hresult : b.stepResult? .singleStep = o.answer.result? := by
      simp only [stepResult?, hstep, ask, accept_spec]
      rfl
    cases hfresh : b.fresh? with
    | none =>
      obtain ⟨reason, hbegin⟩ := begin_of_not_fresh? hp hfresh
      have ho : o = ⟨.refused reason, b.desk, [], false⟩ :=
        Desk.perform_step_of_refused hb.steady.resting hfree hbegin
      rw [ho] at hresult hhears
      refine .of_quiet hresult rfl (.of_free ?_ ?_) (hhears.quiet (by simp))
      · show b.singleStep.2.desk.Steady
        rw [hhears.desk]
        exact hb.steady
      · show b.singleStep.2.desk.scheduler.held = none
        rw [hhears.desk]
        exact hheld
    | some h =>
      obtain ⟨hnone, hbegin⟩ := begin_of_fresh? hp hfresh
      have ho : o = Desk.stepOutcome _ :=
        Desk.perform_step_of_begun hb.steady.resting hfree hbegin
      have hkept : t.kept b .singleStep = ⟨0, 0⟩ := by simp [Tally.kept, hbegun, hfresh]
      rw [ho] at hresult hhears
      refine .of_step _ (hb.steady.begun .idle hbegin) rfl ?_ rfl rfl ?_ ?_ hresult rfl hhears
      · simp [runOf?, hbegun, hfresh]
      · rw [hkept]
        exact hnone
      · rw [hkept]
        rfl

theorem singleStep_reckoned (hb : Counted t b) : Reckoned t b .singleStep := by
  cases hheld : b.desk.scheduler.held with
  | some h => exact nextStep_reckoned hb hheld
  | none => exact firstStep_reckoned hb hheld

theorem heartbeat_reckoned (hb : Counted t b) : Reckoned t b .heartbeat := by
  have hhears : Hears b b (b.desk.perform .heartbeat) (b.happen .heartbeat) := heartbeat_hears b
  have hresult : b.stepResult? .heartbeat = (b.desk.perform .heartbeat).answer.result? := by
    simp only [stepResult?, ask, accept_spec]
  rw [Desk.perform_heartbeat] at hhears hresult
  by_cases hdue : b.desk.scheduler.beat.2 = true
  · rw [if_pos hdue] at hhears hresult
    obtain ⟨h, hheld⟩ := Option.isSome_iff_exists.1 (hb.steady.held_of_due hdue)
    have hbeat := congrArg Prod.fst (Scheduler.beat_setting (s := b.desk.scheduler))
    refine .of_step b hb.steady.beat (Scheduler.beat_held.trans hheld) hheld rfl hbeat ?_ ?_
      hresult rfl hhears
    · exact hb.program h hheld
    · exact hb.steps (by rw [hheld]; rfl)
  · rw [if_neg hdue] at hhears hresult
    refine .of_quiet hresult rfl ⟨?_, ?_, ?_⟩ (hhears.quiet (by simp))
    · rw [hhears.desk]
      exact hb.steady.beat
    · rw [hhears.desk, Scheduler.beat_held]
      exact hb.program
    · rw [hhears.desk, hhears.steps, Scheduler.beat_held]
      exact hb.steps

theorem resume_reckoned (hb : Counted t b) : Reckoned t b .resume := by
  have hhears : Hears b b (b.desk.perform .resume) (b.happen .resume) := accept_hears b b rfl _
  obtain ⟨hnone, hheld⟩ := Desk.resume_answer (d := b.desk)
  have hactions : (b.desk.perform .resume).answer.actions = 0 := by simp [Answer.actions, hnone]
  refine .of_quiet rfl rfl ⟨?_, ?_, ?_⟩ (hhears.quiet ?_)
  · rw [hhears.desk]
    exact hb.steady.perform .resume
  · rw [hhears.desk, hheld]
    exact hb.program
  · rw [hhears.desk, hhears.steps, hheld, hactions]
    exact hb.steps
  · intro hfinished
    rw [hfinished] at hnone
    cases hnone

theorem manual_reckoned (hb : Counted t b) (a : Action) : Reckoned t b (.manual a) := by
  -- the action is counted, but the run that is held has made none
  have hhears : Hears b b (b.desk.perform (.action a b.shown)) (b.happen (.manual a)) :=
    accept_hears b b rfl _
  have hquiet := hhears.quiet (Desk.action_answer a b.shown)
  have hafter : t.after b (.manual a) =
      ⟨t.program, t.hand + (b.desk.perform (.action a b.shown)).answer.actions⟩ := by
    simp [Tally.after, Tally.kept, begun?, stepResult?, handResult?, manual, ask, accept_spec,
      Answer.actions]
  refine ⟨⟨?_, ?_, ?_⟩, ?_, fun n hn => absurd hn (hquiet.not_told n), by simp [stepResult?],
    by simp [stepResult?]⟩
  · rw [hhears.desk]
    exact hb.steady.perform _
  · rw [hhears.desk, Desk.action_scheduler, hafter]
    exact hb.program
  · rw [hhears.desk, hhears.steps, Desk.action_scheduler, hafter]
    intro hsome
    rw [hb.steps hsome, Nat.add_assoc]
  · intro n
    simp [hquiet.not_told, stepResult?]

/-- Every event keeps the count. -/
theorem happen_reckoned (hb : Counted t b) (e : Event) : Reckoned t b e := by
  cases e with
  | edit source => exact .of_quiet rfl rfl ⟨hb.steady, hb.program, hb.steps⟩ (.of_eq rfl)
  | play => exact play_reckoned hb
  | stop files =>
    obtain ⟨hcounted, hquiet⟩ := clear_counted hb (.inl rfl) b.worldName files
    exact .of_quiet rfl rfl hcounted hquiet
  | resume => exact resume_reckoned hb
  | singleStep => exact singleStep_reckoned hb
  | changeWorld files name =>
    obtain ⟨hcounted, hquiet⟩ := clear_counted hb (.inr rfl) name files
    exact .of_quiet rfl rfl hcounted hquiet
  | manual a => exact manual_reckoned hb a
  | heartbeat => exact heartbeat_reckoned hb
  | deliver i =>
    let left := { b with arrivals := b.arrivals.eraseIdx i.toNat }
    have hleft : Counted t left := ⟨hb.steady, hb.program, hb.steps⟩
    refine .of_quiet rfl rfl ?_ ?_
    · show Counted t (b.deliverAt i)
      unfold deliverAt
      split
      · exact hb
      · exact deliver_counted hleft _
    · show Quiet b (b.deliverAt i)
      unfold deliverAt
      split
      · exact .of_eq rfl
      · exact (deliver_quiet (b := left) _ :)

theorem Counted.not_finished (hb : Counted t b) (hstep : b.stepResult? e = none) (n : Nat) :
    .finished n ∉ b.told e := by
  intro hn
  have hresult := ((happen_reckoned hb e).told n |>.1 hn).1
  simp [hstep] at hresult

/-- The tally of a history is what the workbench has counted. -/
theorem through_counted (hb : Counted t b) (events : List Event) :
    Counted (b.tally t events) (b.through events) := by
  induction events generalizing b t with
  | nil => exact hb
  | cons e events ih => exact ih (happen_reckoned hb e).counted

theorem tally_append (events later : List Event) :
    b.tally t (events ++ later) = (b.through events).tally (b.tally t events) later := by
  induction events generalizing b t with
  | nil => rfl
  | cons e events ih => exact ih

end Workbench

end GridRobot
