import GridRobot.Proofs.Scheduler.Listener
import GridRobot.Proofs.Scheduler.Sound

/-!
# What is true of every desk

At a desk the parts of the scheduler fit together, and the world of the run that it holds is there. No
request spoils that, refused ones included.

## Main definitions

* `Desk.Sound` says what was said above.
* `Request.Linked` says that a program that comes with a request has all that it calls.
* `Desk.Answers` is what the outcome of a request is like.
* `Desk.Vacant` says of a desk that no run which was begun earlier is stepped any more.

## Main statements

* `Desk.stepOutcome_eq`: a step of a run that can go on comes to a result.
* `Desk.perform_answers`: the outcome of a request to a sound desk.
* `Desk.sound_through`: what is true after any row of requests, and of the next one.
-/

namespace GridRobot

/-! ### Steps of a desk -/

/-- The procedures that a program calls which comes with a request are there. -/
def Request.Linked {κ : Type} : Request κ → Prop
  | .start p _ => ∀ q ∈ p, q.Linked
  | .step p _ => ∀ q ∈ p, q.Linked
  | _ => True

/-- The program that comes with a request. -/
def Request.program? {κ : Type} : Request κ → Option Program
  | .start p _ => p
  | .step p _ => p
  | _ => none

theorem Request.linked_of_program? {κ : Type} {q : Request κ} (h : q.program? = none) :
    q.Linked := by
  cases q with
  | start p w =>
    obtain rfl : p = none := h
    exact nofun
  | step p w =>
    obtain rfl : p = none := h
    exact nofun
  | _ => trivial

/-- Does a request move the robot by hand? -/
def Request.byHand {κ : Type} : Request κ → Bool
  | .action _ _ => true
  | _ => false

/-- The reasons for which a request may be refused between two others. -/
def Request.refusals {κ : Type} : Request κ → List Refusal
  | .start _ _ => [.programNeeded, .noWorld]
  | .step _ _ => [.programNeeded, .noWorld]
  | .action _ _ => [.programRuns, .noWorld]
  | .resume => [.nothingSuspended]
  | _ => []

namespace Desk

variable {κ : Type} [DecidableEq κ] {d : Desk κ} {h : Held κ} {w : World} {q : Request κ}

/-- The scheduler is sound, and the world of the run it holds is there. -/
structure Sound (d : Desk κ) : Prop where
  scheduler : d.scheduler.Sound
  world : ∀ h ∈ d.scheduler.held, (d.worlds.get? h.world).isSome

theorem Sound.of_free {s : Scheduler κ} (hs : s.Sound) (hfree : s.held = none) (ws : Worlds κ) :
    Sound ⟨s, ws⟩ where
  scheduler := hs
  world := by
    rintro h hh
    cases hfree.symm.trans hh

/-- A step of a run that can go on comes to a result, which the scheduler settles. -/
theorem stepOutcome_eq (hheld : d.scheduler.held = some h) (hworld : d.worlds.get? h.world = some w)
    (hrun : h.run.status = .running) (hlinked : h.run.Linked) :
    ∃ x, (h.run.step d.scheduler.limits w).result = .ok x ∧ x.Timely ∧
      d.stepOutcome = ⟨.result x,
        ⟨({ d.scheduler with
            stepping := false
            held := some ⟨(h.run.step d.scheduler.limits w).run, h.world⟩ } : Scheduler κ).settle x,
          d.worlds.set h.world (h.run.step d.scheduler.limits w).world⟩, [x], false⟩ := by
  obtain ⟨x, hx, htimely, _⟩ := hlinked.step_running hrun d.scheduler.limits w
  refine ⟨x, hx, htimely, ?_⟩
  have hstep : d.toStep? = some (h, w) := toStep?_eq_some.2 ⟨hheld, hworld⟩
  simp [stepOutcome, makeStep, hstep, endStep, hx]

/-- What the outcome of a request is like: a sound desk, no refusal but for a reason that the request
may have, no result of a run that ended earlier, and no run after the fault of a program. -/
structure Answers (q : Request κ) (o : Outcome κ) : Prop where
  desk : o.desk.Sound
  refused : ∀ reason, o.answer = .refused reason → reason ∈ q.refusals
  told : ∀ x, o.answer = .result x → x ∈ o.reported
  timely : ∀ x ∈ o.reported, x.Timely
  faulted : q.byHand = false → ∀ f, .fault f ∈ o.reported → o.desk.scheduler.phase = .faulted

theorem Answers.of_done {reload : Bool} (hd : d.Sound) : Answers q ⟨.done, d, [], reload⟩ where
  desk := hd
  refused := nofun
  told := nofun
  timely := nofun
  faulted := nofun

theorem Answers.of_refused {reason : Refusal} (hd : d.Sound) (hreason : reason ∈ q.refusals) :
    Answers q ⟨.refused reason, d, [], false⟩ where
  desk := hd
  refused := by
    rintro _ ⟨⟩
    exact hreason
  told := nofun
  timely := nofun
  faulted := nofun

theorem Answers.of_limits (hd : d.Sound) :
    Answers .limits (d.perform .limits) where
  desk := hd
  refused := nofun
  told := nofun
  timely := nofun
  faulted := nofun

theorem Answers.of_act {x : StepResult} {a : Action} {key : Option κ} (hd : d.Sound)
    (htimely : x.Timely) : Answers (.action a key) ⟨.result x, d, [x], false⟩ where
  desk := hd
  refused := nofun
  told := by
    rintro _ ⟨⟩
    exact List.mem_singleton_self x
  timely := by
    intro y hy
    obtain rfl := List.mem_singleton.1 hy
    exact htimely
  faulted := nofun

/-- A step of the run that a sound desk holds is never refused. -/
theorem stepOutcome_answers (hd : d.Sound) (hheld : d.scheduler.held.isSome) :
    Answers q d.stepOutcome := by
  obtain ⟨h, hh⟩ := Option.isSome_iff_exists.1 hheld
  obtain ⟨w, hw⟩ := Option.isSome_iff_exists.1 (hd.world h hh)
  obtain ⟨hrun, hlinked⟩ := hd.scheduler.live h hh
  obtain ⟨x, hx, htimely, hout⟩ := stepOutcome_eq hh hw hrun hlinked
  obtain ⟨y, hy, _, hlinked', hstatus⟩ := hlinked.step_running hrun d.scheduler.limits w
  obtain rfl : x = y := Except.ok.inj (hx.symm.trans hy)
  have hsettled := hd.scheduler.settled hh hlinked' hstatus
  rw [hout]
  refine ⟨⟨hsettled, ?_⟩, nofun, ?_, ?_, ?_⟩
  · intro h' hh'
    -- a run that is still held is on the world that was there before
    have hsame : h'.world = h.world := by rw [Scheduler.settled_eq rfl hh']
    have hkeys : (d.worlds.set h.world (h.run.step d.scheduler.limits w).world).get? h.world =
        some (h.run.step d.scheduler.limits w).world := Worlds.get?_set_self (by simp [hw])
    rw [hsame]
    simp [hkeys]
  · rintro _ ⟨⟩
    simp
  · intro y hy
    obtain rfl := List.mem_singleton.1 hy
    exact htimely
  · intro _ f hf
    obtain rfl := List.mem_singleton.1 hf
    rfl

theorem Sound.stepOutcome_ne_refused (hd : d.Sound) (hheld : d.scheduler.held.isSome)
    (reason : Refusal) : d.stepOutcome.answer ≠ .refused reason := by
  intro hrefused
  have hnone := (stepOutcome_answers (q := .heartbeat) hd hheld).refused reason hrefused
  exact List.not_mem_nil hnone

theorem heartbeat_eq_perform : d.heartbeat = d.perform .heartbeat := by
  cases hdue : d.scheduler.beat.2 <;> simp [perform, react, heartbeat, beat, hdue]

theorem heartbeat_answers (hd : d.Sound) : Answers .heartbeat d.heartbeat := by
  have hbeat : Sound { d with scheduler := d.scheduler.beat.1 } := by
    refine ⟨hd.scheduler.beat, ?_⟩
    intro h hh
    exact hd.world h (Scheduler.beat_held ▸ hh)
  rw [heartbeat_eq_perform, perform_heartbeat]
  by_cases hdue : d.scheduler.beat.2 = true
  · rw [if_pos hdue]
    refine stepOutcome_answers hbeat ?_
    show d.scheduler.beat.1.held.isSome
    rw [Scheduler.beat_held]
    exact hd.scheduler.held_of_due hdue
  · rw [if_neg hdue]
    exact .of_done hbeat

theorem action_scheduler (a : Action) (key : Option κ) :
    (d.perform (.action a key)).desk.scheduler = d.scheduler := by
  cases hallow : d.scheduler.allowAction (d.present key) with
  | error reason => simp [perform, react, hallow]
  | ok k => cases hw : d.worlds.get? k <;> simp [perform, react, act, hallow, hw]

theorem action_answers (hd : d.Sound) (a : Action) (key : Option κ) :
    Answers (.action a key) (d.perform (.action a key)) := by
  simp only [perform, react]
  cases hallow : d.scheduler.allowAction (d.present key) with
  | error reason =>
    exact .of_refused hd (Scheduler.allowAction_refused hallow)
  | ok k =>
    simp only [act]
    cases hw : d.worlds.get? k with
    | none =>
      exact .of_refused hd (by simp [Request.refusals])
    | some w =>
      refine .of_act ⟨hd.scheduler, ?_⟩ World.act_timely
      · intro h hh
        have hworld := hd.world h hh
        rw [Worlds.get?_isSome] at hworld ⊢
        rwa [Worlds.keys_set]

theorem tick_of_not_running (hphase : d.scheduler.phase ≠ .running) (n : Nat) :
    d.tick n = ⟨.done, d, [], false⟩ := by
  cases n with
  | zero => rfl
  | succ n => simp [tick, hphase]

theorem Sound.tick_succ (hd : d.Sound) (hphase : d.scheduler.phase = .running) (n : Nat) :
    d.tick (n + 1) = { d.heartbeat.desk.tick n with
      reported := d.heartbeat.reported ++ (d.heartbeat.desk.tick n).reported } := by
  rw [tick, if_neg (not_not.2 hphase)]
  have hgoes (reason : Refusal) : d.heartbeat.answer ≠ .refused reason := fun hreason =>
    absurd ((heartbeat_answers hd).refused reason hreason) List.not_mem_nil
  cases hanswer : d.heartbeat.answer with
  | refused reason => exact absurd hanswer (hgoes reason)
  | _ => simp only [hanswer]

theorem tick_answers (hd : d.Sound) (n : Nat) : Answers q (d.tick n) := by
  induction n generalizing d with
  | zero => exact .of_done hd
  | succ n ih =>
    by_cases hphase : d.scheduler.phase = .running
    · have hfirst := heartbeat_answers hd
      have hrest := ih hfirst.desk
      rw [hd.tick_succ hphase]
      refine ⟨hrest.desk, hrest.refused, ?_, ?_, ?_⟩
      · intro x hx
        exact List.mem_append_right _ (hrest.told x hx)
      · intro x hx
        rcases List.mem_append.1 hx with hx | hx
        · exact hfirst.timely x hx
        · exact hrest.timely x hx
      · intro hhand f hf
        -- after a fault nothing is animated, so the row of heartbeats ends there
        rcases List.mem_append.1 hf with hf | hf
        · have hfaulted := hfirst.faulted rfl f hf
          rw [tick_of_not_running (by simp [hfaulted])]
          exact hfaulted
        · exact hrest.faulted hhand f hf
    · rw [tick_of_not_running hphase]
      exact .of_done hd

/-- A fresh run is on a world that is there. -/
theorem Sound.begun {p : Option Program} {key : Option κ} {ready : Scheduler κ} {phase : Phase}
    (hd : d.Sound) (hp : ∀ r ∈ p, r.Linked) (hphase : phase ≠ .faulted)
    (hbegin : d.scheduler.begin p (d.present key) = .ok ready) :
    Sound { d with scheduler := { ready with phase := phase } } := by
  refine ⟨hd.scheduler.begun hp hphase hbegin, ?_⟩
  obtain ⟨_, key, run, _, hkey, _, rfl⟩ := Scheduler.begin_eq_ok.1 hbegin
  rintro _ ⟨⟩
  exact Worlds.get?_isSome.2 (present_eq_some.1 hkey).2

/-- A scheduler that is ready for a step holds the run that it is to be made of. -/
theorem Sound.readied {p : Option Program} {key : Option κ} {ready : Scheduler κ} (hd : d.Sound)
    (hp : ∀ r ∈ p, r.Linked) (hready : d.scheduler.readyStep p (d.present key) = .ok ready) :
    Sound { d with scheduler := ready } ∧ ready.held.isSome := by
  rcases (Scheduler.readyStep_eq_ok.1 hready).2 with ⟨hsome, rfl⟩ | ⟨_, fresh, hbegin, rfl⟩
  · rw [hd.scheduler.suspended?_eq] at hsome
    obtain ⟨h, hh⟩ := Option.isSome_iff_exists.1 hsome
    exact ⟨⟨hd.scheduler.withPhase hh (by decide), hd.world⟩, hsome⟩
  · refine ⟨hd.begun hp (by decide) hbegin, ?_⟩
    obtain ⟨_, _, _, _, _, _, rfl⟩ := Scheduler.begin_eq_ok.1 hbegin
    rfl

theorem perform_answers (hd : d.Sound) (hq : q.Linked) : Answers q (d.perform q) := by
  cases q with
  | start p w =>
    simp only [perform, react]
    cases hstart : d.scheduler.start p (d.present w) with
    | error reason =>
      exact .of_refused hd (Scheduler.start_refused hq hstart)
    | ok s =>
      obtain ⟨ready, hbegin, rfl⟩ := Scheduler.start_eq_ok.1 hstart
      exact .of_done (hd.begun hq (by decide) hbegin)
  | step p w =>
    simp only [perform, react]
    cases hready : d.scheduler.readyStep p (d.present w) with
    | error reason =>
      exact .of_refused hd (Scheduler.readyStep_refused hd.scheduler.resting hq hready)
    | ok s =>
      obtain ⟨hsound, hheld⟩ := hd.readied hq hready
      exact stepOutcome_answers hsound hheld
  | resume =>
    simp only [perform, react]
    cases hresume : d.scheduler.resume with
    | error reason =>
      exact .of_refused hd (Scheduler.resume_refused hresume)
    | ok s =>
      refine .of_done ⟨hd.scheduler.resume hresume, ?_⟩
      intro h hh
      exact hd.world h (Scheduler.resume_held hresume ▸ hh)
  | action a w => exact action_answers hd a w
  | stop => exact .of_done (.of_free hd.scheduler.clear rfl _)
  | reset => exact .of_done (.of_free hd.scheduler.clear rfl _)
  | heartbeat =>
    rw [← heartbeat_eq_perform]
    exact heartbeat_answers hd
  | tick n => exact tick_answers hd n.toNat
  | limits => exact .of_limits hd

/-! ### Rows of requests -/

theorem makeStep_setting : d.makeStep.2.scheduler.setting = d.scheduler.setting := by
  unfold makeStep
  split
  · rfl
  · simp only [endStep]
    split
    · rfl
    · rw [if_neg (by simp)]
      exact Scheduler.settle_setting

theorem heartbeat_setting : d.heartbeat.desk.scheduler.setting = d.scheduler.setting := by
  rw [heartbeat_eq_perform, perform_heartbeat]
  split
  · rw [stepOutcome_desk, makeStep_setting]
    exact Scheduler.beat_setting
  · exact Scheduler.beat_setting

theorem tick_setting (n : Nat) : (d.tick n).desk.scheduler.setting = d.scheduler.setting := by
  induction n generalizing d with
  | zero => rfl
  | succ n ih =>
    unfold tick
    split
    · rfl
    · simp only
      split
      · exact heartbeat_setting
      · exact ih.trans heartbeat_setting

theorem react_setting (q : Request κ) : (d.react q).2.scheduler.setting = d.scheduler.setting := by
  cases q with
  | start p w =>
    simp only [react]
    cases hs : d.scheduler.start p (d.present w) with
    | error reason => rfl
    | ok s => exact Scheduler.start_setting hs
  | step p w =>
    simp only [react]
    cases hs : d.scheduler.readyStep p (d.present w) with
    | error reason => rfl
    | ok s => exact Scheduler.readyStep_setting hs
  | resume =>
    simp only [react]
    cases hs : d.scheduler.resume with
    | error reason => rfl
    | ok s => exact Scheduler.resume_setting hs
  | action a w =>
    simp only [react, act]
    split
    · rfl
    · split <;> rfl
  | stop => rfl
  | reset => rfl
  | heartbeat => exact Scheduler.beat_setting
  | tick n => rfl
  | limits => rfl

theorem perform_setting (q : Request κ) :
    (d.perform q).desk.scheduler.setting = d.scheduler.setting := by
  have hreact := react_setting (d := d) q
  unfold perform
  split
  all_goals
    rename_i hr
    rw [hr] at hreact
  · exact hreact
  · exact hreact
  · rw [stepOutcome_desk]
    exact makeStep_setting.trans hreact
  · exact hreact
  · exact (tick_setting _).trans hreact

theorem through_setting (qs : List (Request κ)) :
    (d.through qs).scheduler.setting = d.scheduler.setting := by
  induction qs generalizing d with
  | nil => rfl
  | cons q qs ih =>
    rw [through_cons, ih]
    exact perform_setting q

theorem Sound.through {qs : List (Request κ)} (hd : d.Sound) (hqs : ∀ q ∈ qs, q.Linked) :
    (d.through qs).Sound := by
  induction qs generalizing d with
  | nil => exact hd
  | cons q qs ih =>
    obtain ⟨hq, hlater⟩ := List.forall_mem_cons.1 hqs
    exact ih (perform_answers hd hq).desk hlater

theorem perform_of_not_held (hd : d.Sound) (hheld : d.scheduler.held = none)
    (hprogram : q.program? = none) : (d.perform q).desk.scheduler.held = none ∧
      (q.byHand = false → (d.perform q).reported = []) := by
  have hphase := hd.scheduler.phase_ne_running hheld
  have hsuspended := hd.scheduler.suspended?_eq.trans hheld
  cases q with
  | start p w =>
    obtain rfl : p = none := hprogram
    exact ⟨hheld, fun _ => rfl⟩
  | step p w =>
    obtain rfl : p = none := hprogram
    have hrefused : d.scheduler.readyStep none (d.present w) = .error .programNeeded := by
      simp [Scheduler.readyStep, hd.scheduler.resting, hsuspended, Scheduler.begin, bind,
        Except.bind]
    simp [perform, react, hrefused, adopt, hheld]
  | resume =>
    have hrefused : d.scheduler.resume = .error .nothingSuspended := by
      simp [Scheduler.resume, hphase, hsuspended]
    simp [perform, react, hrefused, adopt, hheld]
  | action a w =>
    refine ⟨?_, ?_⟩
    · rw [action_scheduler]
      exact hheld
    · intro hhand
      cases hhand
  | stop => exact ⟨rfl, fun _ => rfl⟩
  | reset => exact ⟨rfl, fun _ => rfl⟩
  | heartbeat =>
    rcases Scheduler.beat_eq hd.scheduler.resting with ⟨hbeat, _⟩ | ⟨hrunning, _⟩
    · rw [perform_heartbeat, hbeat]
      exact ⟨hheld, fun _ => rfl⟩
    · exact absurd hrunning hphase
  | tick n =>
    show (d.tick n.toNat).desk.scheduler.held = none ∧ (_ → (d.tick n.toNat).reported = [])
    rw [tick_of_not_running hphase]
    exact ⟨hheld, fun _ => rfl⟩
  | limits => exact ⟨hheld, fun _ => rfl⟩

/-- If no run was held, what is reported and held after a request is of a fresh run of the program
that came with the request: its first step, and the run before or after that step. -/
theorem fresh_of_not_held (hd : d.Sound) (hheld : d.scheduler.held = none) (hq : q.Linked) :
    (q.byHand = false → ∀ x ∈ (d.perform q).reported, ∃ p run world, q.program? = some p ∧
        Run.start? p = some run ∧ (run.step d.scheduler.limits world).result = .ok x) ∧
      ∀ h ∈ (d.perform q).desk.scheduler.held, ∃ p run, q.program? = some p ∧
        Run.start? p = some run ∧
          (h.run = run ∨ ∃ world, h.run = (run.step d.scheduler.limits world).run) := by
  cases hprogram : q.program? with
  | none =>
    obtain ⟨hstill, hsilent⟩ := perform_of_not_held hd hheld hprogram
    refine ⟨?_, ?_⟩
    · intro hhand x hx
      rw [hsilent hhand] at hx
      cases hx
    · intro h hh
      rw [hstill] at hh
      cases hh
  | some p =>
    cases q with
    | start p' w =>
      obtain rfl : p' = some p := hprogram
      simp only [perform, react]
      cases hstart : d.scheduler.start (some p) (d.present w) with
      | error reason => simp [adopt, hheld]
      | ok s =>
        obtain ⟨ready, hbegin, rfl⟩ := Scheduler.start_eq_ok.1 hstart
        obtain ⟨_, key, run, ⟨⟩, _, hrun, rfl⟩ := Scheduler.begin_eq_ok.1 hbegin
        refine ⟨fun _ => List.forall_mem_nil _, ?_⟩
        rintro _ ⟨⟩
        exact ⟨p, run, rfl, hrun, .inl rfl⟩
    | step p' w =>
      obtain rfl : p' = some p := hprogram
      simp only [perform, react]
      cases hready : d.scheduler.readyStep (some p) (d.present w) with
      | error reason => simp [adopt, hheld]
      | ok s =>
        rcases (Scheduler.readyStep_eq_ok.1 hready).2 with ⟨hsome, _⟩ | ⟨_, ready, hbegin, rfl⟩
        · simp [hd.scheduler.suspended?_eq, hheld] at hsome
        · obtain ⟨_, key, run, ⟨⟩, hkey, hrun, rfl⟩ := Scheduler.begin_eq_ok.1 hbegin
          obtain ⟨run', hrun', hlinked, _, hstatus⟩ := Run.start?_linked (hq p rfl)
          obtain rfl : run = run' := Option.some.inj (hrun.symm.trans hrun')
          obtain ⟨world, hworld⟩ := Option.isSome_iff_exists.1
            (Worlds.get?_isSome.2 (present_eq_some.1 hkey).2)
          obtain ⟨x, hx, _, hout⟩ := stepOutcome_eq (d := ⟨{ d.scheduler with
            held := some ⟨run, key⟩, lastFault := none, countdown := d.scheduler.period
            phase := .idle }, d.worlds⟩) rfl hworld hstatus hlinked
          simp only [adopt, hout]
          refine ⟨?_, ?_⟩
          · intro _ y hy
            obtain rfl := List.mem_singleton.1 hy
            exact ⟨p, run, world, rfl, hrun, hx⟩
          · intro h hh
            refine ⟨p, run, rfl, hrun, .inr ⟨world, ?_⟩⟩
            rw [Scheduler.settled_eq rfl hh]
    | _ => cases hprogram

/-- Whatever is asked of the desk, no step is made of a run that was begun earlier: as long as no
program comes with a request there is none at all, and then the first one of a fresh run. -/
structure Vacant (d : Desk κ) : Prop where
  reported : ∀ rs, (∀ r ∈ rs, r.program? = none) → ∀ r : Request κ, r.Linked → r.byHand = false →
    ∀ x ∈ ((d.through rs).perform r).reported, ∃ p run world, r.program? = some p ∧
      Run.start? p = some run ∧ (run.step d.scheduler.limits world).result = .ok x
  held : ∀ rs, (∀ r ∈ rs, r.program? = none) → ∀ r : Request κ, r.Linked →
    ∀ h ∈ ((d.through rs).perform r).desk.scheduler.held, ∃ p run, r.program? = some p ∧
      Run.start? p = some run ∧
        (h.run = run ∨ ∃ world, h.run = (run.step d.scheduler.limits world).run)

theorem Sound.through_held {rs : List (Request κ)} (hd : d.Sound)
    (hheld : d.scheduler.held = none) (hrs : ∀ r ∈ rs, r.program? = none) :
    (d.through rs).scheduler.held = none := by
  induction rs generalizing d with
  | nil => exact hheld
  | cons r rs ih =>
    obtain ⟨hr, hlater⟩ := List.forall_mem_cons.1 hrs
    have hsound := (perform_answers hd (Request.linked_of_program? hr)).desk
    exact ih hsound (perform_of_not_held hd hheld hr).1 hlater

/-- A desk that has let its run go makes no further step of it. -/
theorem Sound.vacant (hd : d.Sound) (hheld : d.scheduler.held = none) : d.Vacant := by
  have later {rs : List (Request κ)} (hrs : ∀ r ∈ rs, r.program? = none) {r : Request κ}
      (hr : r.Linked) := fresh_of_not_held
    (hd.through fun r hr => Request.linked_of_program? (hrs r hr)) (hd.through_held hheld hrs) hr
  have hlimits (rs : List (Request κ)) : (d.through rs).scheduler.limits = d.scheduler.limits :=
    congrArg Prod.fst (through_setting rs)
  constructor
  · intro rs hrs r hr
    rw [← hlimits rs]
    exact (later hrs hr).1
  · intro rs hrs r hr
    rw [← hlimits rs]
    exact (later hrs hr).2

/-- After any row of requests to a scheduler that was made for `n` heartbeats from step to step,
refused ones included, its parts fit together, and the next request is answered as it should be. A
scheduler that is stopped or reset is idle without a run, and no step is made any more of a run that
was stopped, reset or brought to a fault. A session with a listener that makes no requests has the
same desk. -/
theorem sound_through {limits : Limits} {n : Int} {s : Scheduler κ}
    (hs : Scheduler.ofInts limits n = some s) (ws : Worlds κ) {qs : List (Request κ)}
    (hqs : ∀ q ∈ qs, q.Linked) {q : Request κ} (hq : q.Linked) :
    let d := (Desk.mk s ws).through qs
    let o := d.perform q
    d.Sound ∧ (d.scheduler.period : Int) = n ∧ Answers q o ∧
      (q = .stop ∨ q = .reset →
        o.desk.scheduler.phase = .idle ∧ o.desk.scheduler.held = none ∧ o.desk.Vacant) ∧
      (q.byHand = false → ∀ f, .fault f ∈ o.reported → o.desk.Vacant) ∧
      ∀ reloads, ((Session.opened ⟨s, ws⟩).through (.listener reloads) qs).desk = d := by
  intro d o
  obtain ⟨hheld, _, hmade⟩ := Scheduler.ofInts_setting hs
  have hfirst : (Desk.mk s ws).Sound := .of_free (Scheduler.ofInts_sound hs) hheld ws
  have hd : d.Sound := hfirst.through hqs
  have ho : Answers q o := perform_answers hd hq
  refine ⟨hd, ?_, ho, ?_, ?_, fun reloads => (Session.through_listener _ reloads qs).1⟩
  · have hperiod : d.scheduler.period = s.period := congrArg Prod.snd (through_setting qs)
    rw [hperiod]
    exact hmade
  · rintro (rfl | rfl)
    · exact ⟨rfl, rfl, ho.desk.vacant rfl⟩
    · exact ⟨rfl, rfl, ho.desk.vacant rfl⟩
  · intro hhand f hf
    exact ho.desk.vacant (ho.desk.scheduler.faulted_free (ho.faulted hhand f hf))

/-- A row of requests of which some are refused, up to a step that is blocked. -/
def blockedRow : List (Request Nat) :=
  [.start none (some 0), .start (some (.ofActions [.move, .move] "main")) (some 1), .resume,
    .start (some (.ofActions [.move, .move] "main")) (some 0), .action .turnLeft (some 0),
    .heartbeat, .step none none, .resume]

theorem sound_through_blocked :
    let d := (Desk.mk (.fresh ⟨3, 9⟩ 2) [((0 : Nat), ⟨2, 1, .home, [], [], none⟩)]).through blockedRow
    let q : Request Nat := .tick 5
    Scheduler.ofInts (κ := Nat) ⟨3, 9⟩ 2 = some (.fresh ⟨3, 9⟩ 2) ∧ (∀ r ∈ blockedRow, r.Linked) ∧
      (d.perform q).reported = [.faulted .blockedByWall (some 2)] ∧
      d.Sound ∧ (d.scheduler.period : Int) = 2 ∧ Answers q (d.perform q) ∧
      (d.perform q).desk.Vacant := by
  intro d q
  have hmade : Scheduler.ofInts (κ := Nat) ⟨3, 9⟩ 2 = some (.fresh ⟨3, 9⟩ 2) := rfl
  have hlinked : ∀ r ∈ blockedRow, r.Linked := by
    have hprogram : (Program.ofActions [.move, .move] "main").Linked := by decide
    simp [blockedRow, Request.Linked, hprogram]
  have hreported : (d.perform q).reported = [.faulted .blockedByWall (some 2)] := by decide
  obtain ⟨hsound, hperiod, hanswers, _, hfault, _⟩ :=
    sound_through hmade [((0 : Nat), ⟨2, 1, .home, [], [], none⟩)] hlinked (q := q) trivial
  refine ⟨hmade, hlinked, hreported, hsound, hperiod, hanswers, ?_⟩
  refine hfault rfl ⟨.blockedByWall, some 2⟩ ?_
  rw [hreported]
  exact List.mem_singleton_self _

end Desk

end GridRobot
