import GridRobot.Proofs.Scheduler.Invariant

/-!
# What is true of a desk whatever the programs are

A program that is not closed can be begun all the same, and a step of it may be refused because of a
procedure that is not there. Also then a run that is held can go on, its world is there, and what is
animated is held. This is less than is true of a desk at which all programs are closed, and it is
enough to say when the steps of a run are made.

## Main definitions

* `Scheduler.taking` is a scheduler that takes a run.
* `Desk.Steady` says what was said above.

## Main statements

* `Run.step_running_iff`, `Run.step_steps`: how a step leaves a run.
* `Desk.stepOutcome_spec`: a step of the run that a desk holds.
* `Desk.perform_start_of_begun`, `Desk.perform_step_of_suspended`, `Desk.perform_step_of_begun`:
  what becomes of a request that begins a run or steps it.
* `Desk.Steady.perform`: every request leaves a steady desk.
-/

namespace GridRobot

namespace Run

variable {r : Run} {limits : Limits} {w : World}

/-- A run has not ended after a step if the step goes on, or if it met a procedure that is not
there. -/
theorem step_running_iff (hrun : r.status = .running) :
    (r.step limits w).run.status = .running ↔
      (r.step limits w).result = .ok .continued ∨
        ∃ missing, (r.step limits w).result = .error missing := by
  obtain ⟨result, stack', after, _, hout⟩ := step_spec limits w hrun
  rw [hout]
  rcases result with missing | (_ | _ | f)
  · simp [finishStep, hrun]
  · simp [finishStep, hrun]
  · simp [finishStep]
  · simp [finishStep]

/-- A run has made one more action after a step exactly if the step goes on. -/
theorem step_steps (hrun : r.status = .running) :
    (r.step limits w).run.steps = r.steps + if goesOn (r.step limits w) then 1 else 0 := by
  obtain ⟨result, stack', after, _, hout⟩ := step_spec limits w hrun
  rw [hout]
  rcases result with missing | (_ | _ | f) <;> simp [finishStep, goesOn]

theorem start?_running {p : Program} (h : start? p = some r) :
    r.status = .running ∧ r.steps = 0 := by
  obtain ⟨entry, -, rfl⟩ := Option.map_eq_some_iff.1 h
  exact ⟨rfl, rfl⟩

end Run

/-- The scheduler when it takes a run that it is to make the steps of. -/
def Scheduler.taking {κ : Type} (s : Scheduler κ) (h : Held κ) : Scheduler κ :=
  { s with held := some h, lastFault := none, countdown := s.period }

namespace Desk

variable {κ : Type} [DecidableEq κ] {d : Desk κ} {h : Held κ} {w : World}

/-- The scheduler after a step of a run, before the result is settled. -/
def stepped (d : Desk κ) (h : Held κ) (w : World) : Scheduler κ :=
  { d.scheduler with
    stepping := false
    held := some ⟨(h.run.step d.scheduler.limits w).run, h.world⟩ }

/-- A step of the run that is held: its result is settled, and a procedure that is not there leaves
the run where it is. -/
theorem stepOutcome_spec (hheld : d.scheduler.held = some h)
    (hworld : d.worlds.get? h.world = some w) :
    d.stepOutcome =
      match (h.run.step d.scheduler.limits w).result with
      | .ok x => ⟨.result x, ⟨(d.stepped h w).settle x,
          d.worlds.set h.world (h.run.step d.scheduler.limits w).world⟩, [x], false⟩
      | .error missing => ⟨.refused (.missing missing), ⟨d.stepped h w,
          d.worlds.set h.world (h.run.step d.scheduler.limits w).world⟩, [], false⟩ := by
  have hstep : d.toStep? = some (h, w) := toStep?_eq_some.2 ⟨hheld, hworld⟩
  cases hresult : (h.run.step d.scheduler.limits w).result with
  | ok x => simp [stepOutcome, makeStep, hstep, endStep, hresult, stepped]
  | error missing => simp [stepOutcome, makeStep, hstep, endStep, hresult, stepped]

/-! ### Requests that begin a run or step it -/

variable {p : Option Program} {k : Option κ} {ready : Scheduler κ} {reason : Refusal}

theorem perform_start_of_begun (h : d.scheduler.begin p (d.present k) = .ok ready) :
    d.perform (.start p k) =
      ⟨.done, { d with scheduler := { ready with phase := .running } }, [], false⟩ := by
  have hstart := Scheduler.start_eq_ok.2 ⟨ready, h, rfl⟩
  simp only [perform, react, hstart, adopt]

theorem perform_start_of_refused (h : d.scheduler.begin p (d.present k) = .error reason) :
    d.perform (.start p k) = ⟨.refused reason, d, [], false⟩ := by
  have hstart : d.scheduler.start p (d.present k) = .error reason := by
    simp [Scheduler.start, h, bind, Except.bind]
  simp only [perform, react, hstart, adopt]

theorem perform_step_of_suspended (hresting : d.scheduler.stepping = false)
    (h : d.scheduler.suspended?.isSome) : d.perform (.step p k) =
      stepOutcome { d with scheduler := { d.scheduler with phase := .idle } } := by
  have hready : d.scheduler.readyStep p (d.present k) = .ok _ :=
    Scheduler.readyStep_eq_ok.2 ⟨hresting, .inl ⟨h, rfl⟩⟩
  simp only [perform, react, hready, adopt]

theorem perform_step_of_begun (hresting : d.scheduler.stepping = false)
    (hfree : d.scheduler.suspended? = none)
    (h : d.scheduler.begin p (d.present k) = .ok ready) : d.perform (.step p k) =
      stepOutcome { d with scheduler := { ready with phase := .idle } } := by
  have hready : d.scheduler.readyStep p (d.present k) = .ok _ :=
    Scheduler.readyStep_eq_ok.2 ⟨hresting, .inr ⟨hfree, ready, h, rfl⟩⟩
  simp only [perform, react, hready, adopt]

theorem perform_step_of_refused (hresting : d.scheduler.stepping = false)
    (hfree : d.scheduler.suspended? = none)
    (h : d.scheduler.begin p (d.present k) = .error reason) :
    d.perform (.step p k) = ⟨.refused reason, d, [], false⟩ := by
  have hready : d.scheduler.readyStep p (d.present k) = .error reason := by
    simp [Scheduler.readyStep, hresting, hfree, h, bind, Except.bind]
  simp only [perform, react, hready, adopt]

/-! ### Steadiness -/

/-- No step is being made, a run that is held can go on and has its world, and what is animated is
held. -/
structure Steady (d : Desk κ) : Prop where
  resting : d.scheduler.stepping = false
  live : ∀ h ∈ d.scheduler.held, h.run.status = .running ∧ (d.worlds.get? h.world).isSome
  animated : d.scheduler.phase = .running → d.scheduler.held.isSome

theorem Steady.suspended?_eq (hd : d.Steady) : d.scheduler.suspended? = d.scheduler.held := by
  unfold Scheduler.suspended?
  cases hheld : d.scheduler.held with
  | none => rfl
  | some h =>
    have hrunning := (hd.live h hheld).1
    simp [Option.filter, Run.terminated, hrunning]

/-- The scheduler may count or be set to another phase as long as it holds its run. -/
theorem Steady.withScheduler {s : Scheduler κ} (hd : d.Steady)
    (hresting : s.stepping = d.scheduler.stepping) (hheld : s.held = d.scheduler.held)
    (hphase : s.phase = .running → s.held.isSome) : Steady { d with scheduler := s } where
  resting := hresting.trans hd.resting
  live := by
    intro h hh
    exact hd.live h (hheld ▸ hh)
  animated := hphase

theorem Steady.idled (hd : d.Steady) :
    Steady { d with scheduler := { d.scheduler with phase := .idle } } :=
  hd.withScheduler rfl rfl nofun

theorem Steady.of_free {s : Scheduler κ} (hresting : s.stepping = false) (hheld : s.held = none)
    (hphase : s.phase ≠ .running) (ws : Worlds κ) : Steady ⟨s, ws⟩ where
  resting := hresting
  live := by
    intro h hh
    cases hheld.symm.trans hh
  animated := fun hrunning => absurd hrunning hphase

theorem Steady.begun (hd : d.Steady)
    (phase : Phase) (hbegin : d.scheduler.begin p (d.present k) = .ok ready) :
    Steady { d with scheduler := { ready with phase := phase } } := by
  obtain ⟨_, key, run, _, hkey, hrun, rfl⟩ := Scheduler.begin_eq_ok.1 hbegin
  refine ⟨hd.resting, ?_, fun _ => rfl⟩
  rintro _ ⟨⟩
  exact ⟨(Run.start?_running hrun).1, Worlds.get?_isSome.2 (present_eq_some.1 hkey).2⟩

theorem Steady.stepOutcome (hd : d.Steady) (hheld : d.scheduler.held.isSome) :
    d.stepOutcome.desk.Steady := by
  obtain ⟨h, hh⟩ := Option.isSome_iff_exists.1 hheld
  obtain ⟨hrun, hsome⟩ := hd.live h hh
  obtain ⟨w, hw⟩ := Option.isSome_iff_exists.1 hsome
  -- as long as the run can go on, it is held as it was
  have goes (hgo : (h.run.step d.scheduler.limits w).run.status = .running) :
      Steady ⟨d.stepped h w, d.worlds.set h.world (h.run.step d.scheduler.limits w).world⟩ := by
    refine ⟨rfl, ?_, fun _ => rfl⟩
    rintro _ ⟨⟩
    exact ⟨hgo, by simp [Worlds.get?_set_self hsome]⟩
  rw [stepOutcome_spec hh hw]
  cases hresult : (h.run.step d.scheduler.limits w).result with
  | error missing => exact goes ((Run.step_running_iff hrun).2 (.inr ⟨missing, hresult⟩))
  | ok x =>
    cases x with
    | continued => exact goes ((Run.step_running_iff hrun).2 (.inl hresult))
    | finished => exact .of_free rfl rfl (by simp [Scheduler.settle]) _
    | fault f => exact .of_free rfl rfl (by simp [Scheduler.settle]) _

theorem Steady.beat (hd : d.Steady) : Steady { d with scheduler := d.scheduler.beat.1 } := by
  rcases Scheduler.beat_eq hd.resting with ⟨hbeat, _⟩ | ⟨hrunning, ⟨_, hbeat⟩ | ⟨_, hbeat⟩⟩
  · rw [hbeat]
    exact hd
  · rw [hbeat]
    exact hd.withScheduler rfl rfl hd.animated
  · rw [hbeat]
    exact hd.withScheduler rfl rfl hd.animated

theorem Steady.held_of_due (hd : d.Steady) (hdue : d.scheduler.beat.2 = true) :
    d.scheduler.held.isSome := by
  rcases Scheduler.beat_eq hd.resting with ⟨hbeat, _⟩ | ⟨hrunning, _⟩
  · rw [hbeat] at hdue
    cases hdue
  · exact hd.animated hrunning

theorem Steady.heartbeat (hd : d.Steady) : d.heartbeat.desk.Steady := by
  rw [heartbeat_eq_perform, perform_heartbeat]
  by_cases hdue : d.scheduler.beat.2 = true
  · rw [if_pos hdue]
    refine hd.beat.stepOutcome ?_
    show d.scheduler.beat.1.held.isSome
    rw [Scheduler.beat_held]
    exact hd.held_of_due hdue
  · rw [if_neg hdue]
    exact hd.beat

theorem Steady.tick (hd : d.Steady) (n : Nat) : (d.tick n).desk.Steady := by
  induction n generalizing d with
  | zero => exact hd
  | succ n ih =>
    unfold Desk.tick
    split
    · exact hd
    · simp only
      split
      · exact hd.heartbeat
      · exact ih hd.heartbeat

/-- Every request leaves a steady desk, also one that is refused. -/
theorem Steady.perform (hd : d.Steady) (q : Request κ) : (d.perform q).desk.Steady := by
  cases q with
  | start p w =>
    cases hbegin : d.scheduler.begin p (d.present w) with
    | error reason =>
      rw [perform_start_of_refused hbegin]
      exact hd
    | ok ready =>
      rw [perform_start_of_begun hbegin]
      exact hd.begun .running hbegin
  | step p w =>
    cases hfree : d.scheduler.suspended? with
    | some h =>
      have hheld : d.scheduler.held.isSome := by rw [← hd.suspended?_eq, hfree]; rfl
      rw [perform_step_of_suspended hd.resting (by rw [hfree]; rfl)]
      exact hd.idled.stepOutcome hheld
    | none =>
      cases hbegin : d.scheduler.begin p (d.present w) with
      | error reason =>
        rw [perform_step_of_refused hd.resting hfree hbegin]
        exact hd
      | ok ready =>
        rw [perform_step_of_begun hd.resting hfree hbegin]
        refine Steady.stepOutcome (hd.begun .idle hbegin) ?_
        obtain ⟨_, _, _, _, _, _, rfl⟩ := Scheduler.begin_eq_ok.1 hbegin
        rfl
  | resume =>
    simp only [Desk.perform, react]
    cases hresume : d.scheduler.resume with
    | error reason => exact hd
    | ok s =>
      rcases Scheduler.resume_eq_ok.1 hresume with ⟨_, rfl⟩ | ⟨_, hsome, rfl⟩
      · exact hd
      · rw [hd.suspended?_eq] at hsome
        exact hd.withScheduler rfl rfl fun _ => hsome
  | action a w =>
    simp only [Desk.perform, react]
    cases hallow : d.scheduler.allowAction (d.present w) with
    | error reason => exact hd
    | ok key =>
      simp only [act]
      cases hw : d.worlds.get? key with
      | none => exact hd
      | some world =>
        refine ⟨hd.resting, ?_, hd.animated⟩
        intro h hh
        obtain ⟨hrun, hworld⟩ := hd.live h hh
        rw [Worlds.get?_isSome] at hworld
        exact ⟨hrun, Worlds.get?_isSome.2 (by rwa [Worlds.keys_set])⟩
  | stop => exact .of_free (s := d.scheduler.clear) hd.resting rfl (by simp [Scheduler.clear]) _
  | reset => exact .of_free (s := d.scheduler.clear) hd.resting rfl (by simp [Scheduler.clear]) _
  | heartbeat =>
    rw [← heartbeat_eq_perform]
    exact hd.heartbeat
  | tick n => exact hd.tick n.toNat
  | limits => exact hd

theorem Steady.through (hd : d.Steady) (qs : List (Request κ)) : (d.through qs).Steady := by
  induction qs generalizing d with
  | nil => exact hd
  | cons q qs ih => exact ih (hd.perform q)

end Desk

end GridRobot
