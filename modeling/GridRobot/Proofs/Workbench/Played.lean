import GridRobot.Proofs.Run.Stopped
import GridRobot.Proofs.Workbench.Sound

/-!
# A run on a workbench

A run can be made on a workbench by single steps, or by heartbeats after it was begun. Either way the
workbench makes the steps of the run in turn, tells each of them with a picture of the world after it,
and counts the actions. Heartbeats in between tell at most the picture of the world as it is.

## Main definitions

* `Workbench.Poised` says that a run can be begun on the world that is shown.
* `Workbench.Plays` says of a workbench that it has made so many steps of a run.
* `Workbench.NextStep` says which step of a run the next single step is.
* `Workbench.stepNews` is what is told of a step.

## Main statements

* `Workbench.NextStep.singleStep`: a single step.
* `Workbench.Poised.play`: a run that is begun.
* `Workbench.Plays.heartbeat`: a heartbeat.
-/

namespace GridRobot.Workbench

variable {limits : Limits} {r : Run} {w : World} {key m n k : Nat} {b b' ready : Workbench}
  {p : Program}

/-- No run is held, no step is being made, and the world of a key is shown. -/
structure Poised (limits : Limits) (w : World) (key : Nat) (b : Workbench) : Prop where
  limits : b.desk.scheduler.limits = limits
  resting : b.desk.scheduler.stepping = false
  free : b.desk.scheduler.held = none
  shown : b.shown = some key
  world : b.desk.worlds.get? key = some w

/-- The workbench has made `m` steps of a run on the world that is shown, and has counted their
actions. -/
structure Plays (limits : Limits) (r : Run) (w : World) (key m : Nat) (b : Workbench) : Prop where
  stands : b.desk.Stands limits r w key m
  resting : b.desk.scheduler.stepping = false
  shown : b.shown = some key
  steps : b.steps = (r.after limits w m).1.steps

/-- What is told of the step after `m` steps of a run that comes to a result. -/
def stepNews (limits : Limits) (r : Run) (w : World) (m : Nat) (x : StepResult) : List Notice :=
  .drawn (r.after limits w (m + 1)).2.snapshot :: x.news (r.after limits w (m + 1)).1.steps

theorem Plays.world? (h : b.Plays limits r w key m) :
    b.world? = some (r.after limits w m).2 := by
  rw [Workbench.world?, h.shown]
  exact h.stands.world

theorem Plays.model? (h : b.Plays limits r w key m) :
    b.model? = some (r.after limits w m).2.snapshot := by
  rw [Workbench.model?, h.world?]
  rfl

theorem Plays.picture (h : b.Plays limits r w key m) :
    b.picture = [.drawn (r.after limits w m).2.snapshot] := by
  rw [Workbench.picture, h.model?]
  rfl

theorem Poised.world? (h : b.Poised limits w key) : b.world? = some w := by
  rw [Workbench.world?, h.shown]
  exact h.world

/-- A step of the run that the desk holds, as the workbench hears of it. -/
theorem Hears.plays {o : Desk.Outcome Nat} {d : Desk Nat} (h : Hears b ready o b')
    (ho : o = d.stepOutcome) (hr : r.Linked) (hd : d.Stands limits r w key m)
    (hrun : (r.after limits w m).1.status = .running) (hshown : ready.shown = some key)
    (hsteps : ready.steps = (r.after limits w m).1.steps) :
    ∃ x, (r.stepAfter limits w m).result = .ok x ∧ o.answer = .result x ∧
      b'.Plays limits r w key (m + 1) ∧ b'.notices = b.notices ++ stepNews limits r w m x := by
  subst ho
  obtain ⟨x, hx, -, -, -⟩ := (hr.after limits w m).step_running hrun limits (r.after limits w m).2
  have hresult : (r.stepAfter limits w m).result = .ok x := hx
  have hmakes := hd.stepOutcome_makes hrun
  have hanswer : d.stepOutcome.answer = .result x := by
    have hsaid := hmakes.said
    rw [Stepped.said, hresult] at hsaid
    exact congrArg Prod.fst hsaid
  have hcount : (ready.answered d.stepOutcome).steps = (r.after limits w (m + 1)).1.steps := by
    have hactions : (r.stepAfter limits w m).run.steps = (r.after limits w m).1.steps +
        if Run.goesOn (r.stepAfter limits w m) then 1 else 0 := Run.step_steps hrun
    rw [answered, Run.after_succ, hsteps, hanswer]
    refine Eq.trans ?_ hactions.symm
    cases x <;> simp [Answer.actions, Answer.result?, Run.goesOn, hresult]
  refine ⟨x, hresult, hanswer, ⟨h.desk ▸ hmakes.stands, h.desk ▸ hmakes.resting,
    h.shown.trans hshown, h.steps.trans hcount⟩, ?_⟩
  have hpicture : (ready.answered d.stepOutcome).picture =
      [.drawn (r.after limits w (m + 1)).2.snapshot] :=
    Plays.picture ⟨hmakes.stands, hmakes.resting, hshown, hcount⟩
  obtain ⟨more, hnotices, hmore⟩ := h.notices
  -- a further picture is told only where no step was made
  have hnone : more = [] := by
    rcases hmore with hmore | ⟨-, hnot⟩
    · exact hmore
    · simp [hanswer, Answer.result?] at hnot
  rw [hnotices, hnone, List.append_nil, hanswer, heard, hpicture, hcount]
  rfl

/-! ### Runs that are begun -/

/-- A run that is begun stands at its first step. -/
theorem Poised.begin (hb : b.Poised limits w key) (hr : Run.start? p = some r) :
    b.desk.scheduler.begin (some p) (b.desk.present b.shown) =
        .ok (b.desk.scheduler.taking ⟨r, key⟩) ∧
      ∀ phase, Desk.Stands limits r w key 0 { b.desk with
        scheduler := { b.desk.scheduler.taking ⟨r, key⟩ with phase := phase } } := by
  have hkey : b.desk.present b.shown = some key := by
    rw [hb.shown]
    exact Desk.present_eq_some.2 ⟨rfl, Worlds.get?_isSome.1 (by simp [hb.world])⟩
  have hrun := (Run.start?_running hr).1
  rw [hkey]
  exact ⟨Scheduler.begin_eq_ok.2 ⟨p, key, r, rfl, rfl, hr, rfl⟩,
    fun phase => ⟨hb.limits, hb.world, (if_pos hrun).symm⟩⟩

/-- Which step of a run the next single step is: the first one, of a run that is begun by it, or the
one that follows those that were made. -/
inductive NextStep (limits : Limits) (r : Run) (w : World) (key : Nat) : Nat → Workbench → Prop where
  | first {b : Workbench} {p : Program} (poised : b.Poised limits w key)
      (program : b.program? = some p) (start : Run.start? p = some r) :
      NextStep limits r w key 0 b
  | later {b : Workbench} {m : Nat} (plays : b.Plays limits r w key m)
      (running : (r.after limits w m).1.status = .running) : NextStep limits r w key m b

/-- A single step is made and told. -/
theorem NextStep.singleStep (hr : r.Linked) (h : NextStep limits r w key m b) :
    ∃ x, (r.stepAfter limits w m).result = .ok x ∧ b.singleStep.1 = .ok (some x) ∧
      b.singleStep.2.Plays limits r w key (m + 1) ∧
      b.singleStep.2.notices = b.notices ++ stepNews limits r w m x := by
  cases h with
  | @first _ p hb hp hstart =>
    obtain ⟨hrun, hzero⟩ := Run.start?_running hstart
    obtain ⟨hbegin, hstands⟩ := hb.begin hstart
    have hfree : b.desk.scheduler.suspended? = none := by simp [Scheduler.suspended?, hb.free]
    let ready := { b.compiled p with steps := 0 }
    obtain ⟨x, hx, hanswer, hplays, hnotices⟩ :=
      (accept_hears b ready rfl (b.desk.perform (.step (some p) b.shown))).plays
        (Desk.perform_step_of_begun hb.resting hfree hbegin) hr (hstands .idle) hrun hb.shown
        hzero.symm
    rw [singleStep_of_program? hfree hp]
    refine ⟨x, hx, ?_, hplays, hnotices⟩
    show Except.ok (ready.accept (b.desk.perform (.step (some p) b.shown))).1 = _
    rw [accept_spec, hanswer]
    rfl
  | later hb hrun =>
    have hsuspended : b.desk.scheduler.suspended?.isSome := by
      rw [Scheduler.suspended?, hb.stands.held, if_pos hrun]
      simp [Option.filter, Run.terminated, hrun]
    obtain ⟨x, hx, hanswer, hplays, hnotices⟩ :=
      (accept_hears b b rfl (b.desk.perform (.step none b.shown))).plays
        (Desk.perform_step_of_suspended hb.resting hsuspended) hr (hb.stands.with rfl rfl) hrun
        hb.shown hb.steps
    rw [singleStep_of_suspended hsuspended]
    refine ⟨x, hx, ?_, hplays, hnotices⟩
    show Except.ok (b.accept (b.desk.perform (.step none b.shown))).1 = _
    rw [accept_spec, hanswer]
    rfl

theorem play_outcome (hp : b.program? = some p) : b.play.1 = .ok (.ok p) := by
  rw [play, compile_of_program? hp]

theorem play_eq_compile (h : b.program? = none) : b.play = b.compile := by
  obtain ⟨hnot, -⟩ := compile_of_not_program? h
  unfold play
  split
  · rename_i p _ hp
    exact absurd (congrArg Prod.fst hp) (hnot p)
  · rfl

theorem play_config (b : Workbench) : b.play.2.config = b.config := by
  cases hp : b.program? with
  | none =>
    obtain ⟨-, last, ns, hcompiled, -⟩ := compile_of_not_program? hp
    rw [play_eq_compile hp, hcompiled]
  | some p =>
    rw [play_of_program? hp]
    simp only [accept_spec]
    split <;> rfl

/-- A run that is begun to be animated: no step is made yet, and nothing is told. -/
theorem Poised.play (hb : b.Poised limits w key) (hp : b.program? = some p)
    (hr : Run.start? p = some r) (hperiod : b.desk.scheduler.period = n) :
    b.play.1 = .ok (.ok p) ∧ b.play.2.Plays limits r w key 0 ∧
      b.play.2.desk.Paced limits n r w key 0 ∧ b.play.2.notices = b.notices := by
  obtain ⟨hrun, hzero⟩ := Run.start?_running hr
  obtain ⟨hbegin, hstands⟩ := hb.begin hr
  let o := b.desk.perform (.start (some p) b.shown)
  have ho : o = ⟨.done, { b.desk with
      scheduler := { b.desk.scheduler.taking ⟨r, key⟩ with phase := .running } }, [], false⟩ :=
    Desk.perform_start_of_begun hbegin
  have hplay : b.play.2 = { ((b.compiled p).accept o).2 with steps := 0 } := by
    rw [play_of_program? hp, if_pos (show o.answer = .done by rw [ho])]
  rw [accept_spec, ho] at hplay
  have hzeroth : r.after limits w (0 / n) = (r, w) := by rw [Nat.zero_div]; rfl
  refine ⟨play_outcome hp, ?_, ?_, ?_⟩
  · rw [hplay]
    exact ⟨hstands .running, hb.resting, hb.shown, hzero.symm⟩
  · rw [hplay]
    refine ⟨?_, hb.resting, hperiod, ?_, ?_⟩
    · rw [Nat.zero_div]
      exact hstands .running
    · intro _
      rw [Nat.zero_mod]
      exact ⟨rfl, hperiod⟩
    · rw [hzeroth]
      exact fun hended => absurd hrun hended
  · rw [hplay]
    exact List.append_nil _

/-! ### Heartbeats -/

/-- An answer at which no step is made: at most the picture of the world is told. -/
theorem Plays.idle {o : Desk.Outcome Nat} (hb : b.Plays limits r w key m)
    (hanswer : o.answer = .done) (hd : o.desk.Stands limits r w key n)
    (hresting : o.desk.scheduler.stepping = false)
    (hsame : r.after limits w n = r.after limits w m) (h : Hears b b o b') :
    b'.Plays limits r w key n ∧ ∃ more, b'.notices = b.notices ++ more ∧
      (more = [] ∨ more = [.drawn (r.after limits w n).2.snapshot]) := by
  have hsteps : (b.answered o).steps = (r.after limits w n).1.steps := by
    rw [hsame, ← hb.steps, answered, hanswer]
    rfl
  refine ⟨⟨h.desk ▸ hd, h.desk ▸ hresting, h.shown.trans hb.shown, h.steps.trans hsteps⟩, ?_⟩
  have hpicture : (b.answered o).picture = [.drawn (r.after limits w n).2.snapshot] :=
    Plays.picture ⟨hd, hresting, hb.shown, hsteps⟩
  obtain ⟨more, hnotices, hmore⟩ := h.notices
  rw [hanswer] at hnotices
  exact ⟨more, hnotices, hmore.imp_right fun hmore => hmore.1.trans hpicture⟩

/-- What comes of a heartbeat: the step that falls due is made and told; otherwise the run is where it
was, and at most the picture of the world is told. -/
inductive Beats (limits : Limits) (n : Nat) (r : Run) (w : World) (key k : Nat) (b : Workbench) :
    Prop where
  | step {x : StepResult} (due : n ∣ k + 1) (running : (r.after limits w (k / n)).1.status = .running)
      (count : (k + 1) / n = k / n + 1) (result : (r.stepAfter limits w (k / n)).result = .ok x)
      (heard : b.stepResult? .heartbeat = some x)
      (told : b.heartbeat.notices = b.notices ++ stepNews limits r w (k / n) x) :
      Beats limits n r w key k b
  | idle {more : List Notice}
      (quiet : ¬ (n ∣ k + 1 ∧ (r.after limits w (k / n)).1.status = .running))
      (same : r.after limits w ((k + 1) / n) = r.after limits w (k / n))
      (heard : b.stepResult? .heartbeat = none) (told : b.heartbeat.notices = b.notices ++ more)
      (few : more = [] ∨ more = [.drawn (r.after limits w ((k + 1) / n)).2.snapshot]) :
      Beats limits n r w key k b

theorem stepResult?_heartbeat (b : Workbench) :
    b.stepResult? .heartbeat = (b.desk.perform .heartbeat).answer.result? := by
  simp only [stepResult?, ask, accept_spec]

/-- A heartbeat at which the desk answers with the result of a step. -/
theorem Plays.heartbeat_due (hr : r.Linked) (hb : b.Plays limits r w key m)
    (hrun : (r.after limits w m).1.status = .running)
    (hsaid : ((b.desk.perform .heartbeat).answer, (b.desk.perform .heartbeat).reported) =
      (r.stepAfter limits w m).said) :
    ∃ x, (r.stepAfter limits w m).result = .ok x ∧ b.stepResult? .heartbeat = some x ∧
      b.heartbeat.Plays limits r w key (m + 1) ∧
      b.heartbeat.notices = b.notices ++ stepNews limits r w m x := by
  obtain ⟨y, hy, -⟩ := (hr.after limits w m).step_running hrun limits (r.after limits w m).2
  have hresult : (r.stepAfter limits w m).result = .ok y := hy
  have hbeat : b.desk.scheduler.beat.2 = true := by
    -- otherwise no result would be answered
    by_contra hwaits
    rw [Desk.perform_heartbeat, if_neg hwaits, Stepped.said, hresult] at hsaid
    cases congrArg Prod.fst hsaid
  have hstep : b.desk.perform .heartbeat =
      Desk.stepOutcome { b.desk with scheduler := b.desk.scheduler.beat.1 } := by
    rw [Desk.perform_heartbeat, if_pos hbeat]
  have hstands : Desk.Stands limits r w key m
      { b.desk with scheduler := b.desk.scheduler.beat.1 } :=
    hb.stands.with (congrArg Prod.fst Scheduler.beat_setting) Scheduler.beat_held
  obtain ⟨x, hx, hanswer, hplays, hnotices⟩ :=
    (heartbeat_hears b).plays hstep hr hstands hrun hb.shown hb.steps
  refine ⟨x, hx, ?_, hplays, hnotices⟩
  rw [stepResult?_heartbeat, hanswer]
  rfl

/-- Where no step is due, the run is where it was: no period is complete, or the run has ended. -/
theorem after_div_of_quiet
    (hquiet : ¬ (n ∣ k + 1 ∧ (r.after limits w (k / n)).1.status = .running)) :
    r.after limits w ((k + 1) / n) = r.after limits w (k / n) := by
  by_cases hdvd : n ∣ k + 1
  · rw [Nat.succ_div_of_dvd hdvd, Run.after_succ_of_ended fun hrun => hquiet ⟨hdvd, hrun⟩]
  · rw [Nat.succ_div_of_not_dvd hdvd]

theorem Plays.heartbeat (hr : r.Linked) (hn : 0 < n) (hb : b.Plays limits r w key (k / n))
    (hd : b.desk.Paced limits n r w key k) : b.heartbeat.Plays limits r w key ((k + 1) / n) ∧
      b.heartbeat.desk.Paced limits n r w key (k + 1) ∧ b.Beats limits n r w key k := by
  obtain ⟨hpaced, hsaid⟩ := hd.heartbeat hn
  have hhears := heartbeat_hears b
  rw [hhears.desk]
  by_cases hdue : n ∣ k + 1 ∧ (r.after limits w (k / n)).1.status = .running
  · rw [if_pos hdue] at hsaid
    obtain ⟨x, hx, hheard, hplays, hnotices⟩ := hb.heartbeat_due hr hdue.2 hsaid
    have hcount : (k + 1) / n = k / n + 1 := Nat.succ_div_of_dvd hdue.1
    rw [hcount]
    exact ⟨hplays, hpaced, .step hdue.1 hdue.2 hcount hx hheard hnotices⟩
  · rw [if_neg hdue] at hsaid
    have hanswer : (b.desk.perform .heartbeat).answer = .done := congrArg Prod.fst hsaid
    have hsame := after_div_of_quiet hdue
    obtain ⟨hplays, more, hnotices, hmore⟩ :=
      hb.idle hanswer hpaced.stands hpaced.resting hsame hhears
    refine ⟨hplays, hpaced, .idle hdue hsame ?_ hnotices hmore⟩
    rw [stepResult?_heartbeat, hanswer]
    rfl

/-! ### What is seen of the steps -/

variable [Yaml.Reader]

/-- What is seen of the step that an event makes: its result and the world that is shown then. -/
def seen? (b : Workbench) (e : Event) : Option Observation := do
  let x ← b.stepResult? e
  let w ← (b.happen e).world?
  some ⟨x, w⟩

/-- What is seen of the steps that are made in a history. -/
def seen (b : Workbench) : List Event → List Observation
  | [] => []
  | e :: events => (b.seen? e).toList ++ (b.happen e).seen events

theorem seen_concat (b : Workbench) (events : List Event) (e : Event) :
    b.seen (events ++ [e]) = b.seen events ++ ((b.through events).seen? e).toList := by
  induction events generalizing b with
  | nil => exact List.append_nil _
  | cons first events ih =>
    rw [List.cons_append, seen, ih, seen, List.append_assoc]
    rfl

/-- A step of the run is seen as it is when the run is stepped by itself. -/
theorem seen?_of_step {e : Event} {x : StepResult} (hheard : b.stepResult? e = some x)
    (hx : (r.stepAfter limits w m).result = .ok x)
    (h : (b.happen e).Plays limits r w key (m + 1)) :
    ∃ o, b.seen? e = some o ∧ (r.stepAfter limits w m).observed = .ok o := by
  refine ⟨⟨x, (r.stepAfter limits w m).world⟩, ?_, ?_⟩
  · rw [seen?, hheard, h.world?, Run.after_succ]
    rfl
  · rw [Stepped.observed, hx]
    rfl

end GridRobot.Workbench
