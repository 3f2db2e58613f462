import GridRobot.Proofs.Scheduler.Delivery
import GridRobot.Proofs.Scheduler.Steady

/-!
# The pace of a run

From the moment at which a run is animated its steps are made at every so many heartbeats, neither
sooner nor later, up to its end, and after that heartbeats do nothing. This is so of every program.

## Main definitions

* `Desk.SetsOff` says of a request that it begins to animate a run.
* `Desk.Paced` says of a desk that it has had so many heartbeats since then.
* `Desk.Makes` says what comes of a step, of whatever program.
* `Stepped.said` is what is answered and reported of a step.

## Main statements

* `Desk.Paced.of_setsOff`: a run that is animated from now on.
* `Desk.Paced.heartbeat`: the next heartbeat.
* `Desk.Paced.heartbeats`: any number of heartbeats.
-/

namespace GridRobot

/-- What is answered and reported of a step. -/
def Stepped.said (s : Stepped) : Answer × List StepResult :=
  match s.result with
  | .ok x => (.result x, [x])
  | .error missing => (.refused (.missing missing), [])

theorem Run.after_succ_of_ended {limits : Limits} {r : Run} {w : World} {m : Nat}
    (hended : (r.after limits w m).1.status ≠ .running) :
    r.after limits w (m + 1) = r.after limits w m := by
  rw [after_succ, stepAfter, step_of_ended _ _ hended]

/-- The number of whole rows of `n` that `k + 1` things make. -/
theorem div_mod_succ {n : Nat} (hn : 0 < n) (k : Nat) :
    (n ∣ k + 1 ∧ (k + 1) / n = k / n + 1 ∧ (k + 1) % n = 0 ∧ k % n + 1 = n) ∨
      (¬ n ∣ k + 1 ∧ (k + 1) / n = k / n ∧ (k + 1) % n = k % n + 1 ∧ k % n + 1 < n) := by
  have hk : n * (k / n) + k % n = k := Nat.div_add_mod k n
  have hsucc : n * ((k + 1) / n) + (k + 1) % n = k + 1 := Nat.div_add_mod (k + 1) n
  by_cases hdvd : n ∣ k + 1
  · have hdiv := Nat.succ_div_of_dvd hdvd
    have hmod := Nat.mod_eq_zero_of_dvd hdvd
    rw [hdiv, hmod, Nat.mul_add, Nat.mul_one] at hsucc
    exact .inl ⟨hdvd, hdiv, hmod, by omega⟩
  · have hdiv := Nat.succ_div_of_not_dvd hdvd
    have hlt := Nat.mod_lt (k + 1) hn
    rw [hdiv] at hsucc
    exact .inr ⟨hdvd, hdiv, by omega, by omega⟩

namespace Desk

variable {κ : Type} [DecidableEq κ] {d : Desk κ} {limits : Limits} {n k : Nat} {r : Run} {w : World}
  {key : κ}

/-- Does a request begin to animate a run, if it is not refused? A run that is already animated
goes on at its pace when it is resumed. -/
def SetsOff (d : Desk κ) : Request κ → Prop
  | .start _ _ => True
  | .resume => d.scheduler.phase ≠ .running
  | _ => False

/-- The desk has had `k` heartbeats since it began to animate a run at the pace of `n` heartbeats:
the steps that fell due were made, and until its end the run is animated and counted down. -/
structure Paced (limits : Limits) (n : Nat) (r : Run) (w : World) (key : κ) (k : Nat) (d : Desk κ) :
    Prop where
  stands : d.Stands limits r w key (k / n)
  resting : d.scheduler.stepping = false
  period : d.scheduler.period = n
  counting : (r.after limits w (k / n)).1.status = .running →
    d.scheduler.phase = .running ∧ d.scheduler.countdown = n - k % n
  stopped : (r.after limits w (k / n)).1.status ≠ .running → d.scheduler.phase ≠ .running

theorem SetsOff.animated {q : Request κ} (hq : d.SetsOff q) (hdone : (d.perform q).answer = .done) :
    (d.perform q).desk.scheduler.phase = .running ∧
      (d.perform q).desk.scheduler.countdown = d.scheduler.period := by
  cases q with
  | start p k =>
    cases hbegin : d.scheduler.begin p (d.present k) with
    | error reason =>
      rw [perform_start_of_refused hbegin] at hdone
      cases hdone
    | ok ready =>
      obtain ⟨_, _, _, _, _, _, rfl⟩ := Scheduler.begin_eq_ok.1 hbegin
      rw [perform_start_of_begun hbegin]
      exact ⟨rfl, rfl⟩
  | resume =>
    simp only [perform, react] at hdone ⊢
    cases hresume : d.scheduler.resume with
    | error reason =>
      rw [hresume] at hdone
      cases hdone
    | ok s =>
      rcases Scheduler.resume_eq_ok.1 hresume with ⟨hrunning, _⟩ | ⟨_, _, rfl⟩
      · exact absurd hrunning hq
      · exact ⟨rfl, rfl⟩
  | _ => cases hq

/-- A request that is carried out and begins to animate a run. -/
theorem Paced.of_setsOff (hd : d.Steady) (hperiod : d.scheduler.period = n)
    (hlimits : d.scheduler.limits = limits) {q : Request κ} (hq : d.SetsOff q)
    (hdone : (d.perform q).answer = .done) : ∃ h w,
      (d.perform q).desk.scheduler.held = some h ∧
      (d.perform q).desk.worlds.get? h.world = some w ∧ h.run.status = .running ∧
        Paced limits n h.run w h.world 0 (d.perform q).desk := by
  have hsteady := hd.perform q
  have hsetting := perform_setting (d := d) q
  obtain ⟨hphase, hcount⟩ := hq.animated hdone
  obtain ⟨h, hheld⟩ := Option.isSome_iff_exists.1 (hsteady.animated hphase)
  obtain ⟨hrun, hsome⟩ := hsteady.live h hheld
  obtain ⟨w, hw⟩ := Option.isSome_iff_exists.1 hsome
  have hzero : h.run.after limits w (0 / n) = (h.run, w) := by rw [Nat.zero_div]; rfl
  refine ⟨h, w, hheld, hw, hrun, ⟨?_, ?_, ?_⟩, hsteady.resting, ?_, ?_, ?_⟩
  · exact (congrArg Prod.fst hsetting).trans hlimits
  · rw [hzero]
    exact hw
  · rw [hzero, if_pos hrun]
    exact hheld
  · exact (congrArg Prod.snd hsetting).trans hperiod
  · intro _
    rw [Nat.zero_mod]
    exact ⟨hphase, hcount.trans hperiod⟩
  · rw [hzero]
    exact fun hended => absurd hrun hended

/-- What comes of the step that follows `m` steps of the run that a desk holds: it is said what it
comes to, and the run is animated as before if it can go on. -/
structure Makes (limits : Limits) (r : Run) (w : World) (key : κ) (m : Nat) (d : Desk κ)
    (o : Outcome κ) : Prop where
  stands : o.desk.Stands limits r w key (m + 1)
  said : (o.answer, o.reported) = (r.stepAfter limits w m).said
  resting : o.desk.scheduler.stepping = false
  period : o.desk.scheduler.period = d.scheduler.period
  countdown : o.desk.scheduler.countdown = d.scheduler.countdown
  goes : (r.after limits w (m + 1)).1.status = .running →
    o.desk.scheduler.phase = d.scheduler.phase
  ends : (r.after limits w (m + 1)).1.status ≠ .running → o.desk.scheduler.phase ≠ .running

theorem Stands.stepOutcome_makes {m : Nat} (h : d.Stands limits r w key m)
    (hrun : (r.after limits w m).1.status = .running) :
    Makes limits r w key m d d.stepOutcome := by
  have hlimits := h.sameLimits
  let s := r.stepAfter limits w m
  have hheld : d.scheduler.held = some ⟨(r.after limits w m).1, key⟩ := by
    rw [h.held, if_pos hrun]
  have hworld : (d.worlds.set key s.world).get? key = some s.world :=
    Worlds.get?_set_self (by simp [h.world])
  have hgoes : s.run.status = .running ↔
      s.result = .ok .continued ∨ ∃ missing, s.result = .error missing :=
    Run.step_running_iff hrun
  let taken : Scheduler κ := { d.scheduler with stepping := false, held := some ⟨s.run, key⟩ }
  have hspec : d.stepOutcome = match s.result with
      | .ok x => ⟨.result x, ⟨taken.settle x, d.worlds.set key s.world⟩, [x], false⟩
      | .error missing =>
        ⟨.refused (.missing missing), ⟨taken, d.worlds.set key s.world⟩, [], false⟩ := by
    subst hlimits
    exact stepOutcome_spec hheld h.world
  have hafter : r.after limits w (m + 1) = (s.run, s.world) := Run.after_succ limits r w m
  have hstatus : (r.after limits w (m + 1)).1.status = .running ↔ s.run.status = .running := by
    rw [hafter]
  -- a run that can go on stays with the scheduler, and one that has ended is let go
  have goes (hgo : s.run.status = .running) :
      Stands limits r w key (m + 1) ⟨taken, d.worlds.set key s.world⟩ :=
    ⟨hlimits, by rw [hafter]; exact hworld, by rw [hafter, if_pos hgo]⟩
  have ends {s' : Scheduler κ} (hsame : s'.limits = d.scheduler.limits) (hfree : s'.held = none)
      (hend : s.run.status ≠ .running) :
      Stands limits r w key (m + 1) ⟨s', d.worlds.set key s.world⟩ :=
    ⟨hsame.trans hlimits, by rw [hafter]; exact hworld,
      by rw [hafter, if_neg hend]; exact hfree⟩
  have hsaid : s.said = match s.result with
      | .ok x => (.result x, [x])
      | .error missing => (.refused (.missing missing), []) := rfl
  rcases hresult : s.result with missing | (_ | _ | f)
  all_goals rw [hresult] at hspec hsaid hgoes
  · have hgo := hgoes.2 (.inr ⟨missing, rfl⟩)
    rw [hspec]
    exact ⟨goes hgo, hsaid.symm, rfl, rfl, rfl, fun _ => rfl,
      fun hend => absurd (hstatus.2 hgo) hend⟩
  · have hgo := hgoes.2 (.inl rfl)
    rw [hspec]
    exact ⟨goes hgo, hsaid.symm, rfl, rfl, rfl, fun _ => rfl,
      fun hend => absurd (hstatus.2 hgo) hend⟩
  · have hend : s.run.status ≠ .running := by simp [hgoes]
    rw [hspec]
    exact ⟨ends rfl rfl hend, hsaid.symm, rfl, rfl, rfl,
      fun hgo => absurd (hstatus.1 hgo) hend, by simp [Scheduler.settle]⟩
  · have hend : s.run.status ≠ .running := by simp [hgoes]
    rw [hspec]
    exact ⟨ends rfl rfl hend, hsaid.symm, rfl, rfl, rfl,
      fun hgo => absurd (hstatus.1 hgo) hend, by simp [Scheduler.settle]⟩

theorem perform_heartbeat_due {s : Scheduler κ} (h : d.scheduler.beat = (s, true)) :
    d.perform .heartbeat = stepOutcome { d with scheduler := s } := by
  rw [perform_heartbeat, h, if_pos rfl]

theorem perform_heartbeat_waits {s : Scheduler κ} (h : d.scheduler.beat = (s, false)) :
    d.perform .heartbeat = ⟨.done, { d with scheduler := s }, [], false⟩ := by
  rw [perform_heartbeat, h]
  rfl

/-- The countdown has come to its end: the step is made, and the countdown begins anew. -/
theorem Paced.heartbeat_due (h : Paced limits n r w key k d)
    (hrun : (r.after limits w (k / n)).1.status = .running) (hfull : k % n + 1 = n)
    (hdiv : (k + 1) / n = k / n + 1) (hmod : (k + 1) % n = 0) :
    Paced limits n r w key (k + 1) (d.perform .heartbeat).desk ∧
      ((d.perform .heartbeat).answer, (d.perform .heartbeat).reported) =
        (r.stepAfter limits w (k / n)).said := by
  obtain ⟨hphase, hcount⟩ := h.counting hrun
  have hone : ¬ 1 < d.scheduler.countdown := by omega
  have hbeat : d.scheduler.beat =
      ({ d.scheduler with countdown := d.scheduler.period }, true) := by
    simp [Scheduler.beat, h.resting, hphase, hone]
  have hready : Stands limits r w key (k / n)
      { d with scheduler := { d.scheduler with countdown := d.scheduler.period } } :=
    h.stands.with rfl rfl
  have hmakes := hready.stepOutcome_makes hrun
  rw [perform_heartbeat_due hbeat]
  refine ⟨⟨?_, hmakes.resting, hmakes.period.trans h.period, ?_, ?_⟩, hmakes.said⟩
  · rw [hdiv]
    exact hmakes.stands
  · rw [hdiv, hmod]
    exact fun hgo => ⟨(hmakes.goes hgo).trans hphase, hmakes.countdown.trans h.period⟩
  · rw [hdiv]
    exact hmakes.ends

theorem Paced.heartbeat_waits (h : Paced limits n r w key k d)
    (hrun : (r.after limits w (k / n)).1.status = .running) (hless : k % n + 1 < n)
    (hdiv : (k + 1) / n = k / n) (hmod : (k + 1) % n = k % n + 1) :
    Paced limits n r w key (k + 1) (d.perform .heartbeat).desk ∧
      ((d.perform .heartbeat).answer, (d.perform .heartbeat).reported) = (.done, []) := by
  obtain ⟨hphase, hcount⟩ := h.counting hrun
  have hmore : 1 < d.scheduler.countdown := by omega
  have hbeat : d.scheduler.beat =
      ({ d.scheduler with countdown := d.scheduler.countdown - 1 }, false) := by
    simp [Scheduler.beat, h.resting, hphase, hmore]
  rw [perform_heartbeat_waits hbeat]
  refine ⟨⟨?_, h.resting, h.period, ?_, ?_⟩, rfl⟩
  · rw [hdiv]
    exact h.stands.with rfl rfl
  · intro _
    rw [hmod]
    refine ⟨hphase, ?_⟩
    simp only
    omega
  · rw [hdiv]
    exact fun hended => absurd hrun hended

/-- After the end of the run a heartbeat does nothing. -/
theorem Paced.heartbeat_stopped (hn : 0 < n) (h : Paced limits n r w key k d)
    (hended : (r.after limits w (k / n)).1.status ≠ .running) :
    d.perform .heartbeat = ⟨.done, d, [], false⟩ ∧ Paced limits n r w key (k + 1) d := by
  refine ⟨heartbeat_of_not_running (h.stopped hended), ?_⟩
  have hsame : r.after limits w ((k + 1) / n) = r.after limits w (k / n) := by
    obtain ⟨-, hdiv, -⟩ | ⟨-, hdiv, -⟩ := div_mod_succ hn k
    · rw [hdiv, Run.after_succ_of_ended hended]
    · rw [hdiv]
  refine ⟨⟨h.stands.sameLimits, ?_, ?_⟩, h.resting, h.period, ?_, ?_⟩
  · rw [hsame]
    exact h.stands.world
  · rw [hsame]
    exact h.stands.held
  · rw [hsame]
    exact fun hrunning => absurd hrunning hended
  · rw [hsame]
    exact h.stopped

/-- One heartbeat: the step that falls due is made; in between and after the end there is none. -/
theorem Paced.heartbeat (hn : 0 < n) (h : Paced limits n r w key k d) :
    Paced limits n r w key (k + 1) (d.perform .heartbeat).desk ∧
      ((d.perform .heartbeat).answer, (d.perform .heartbeat).reported) =
        if n ∣ k + 1 ∧ (r.after limits w (k / n)).1.status = .running then
          (r.stepAfter limits w (k / n)).said
        else (.done, []) := by
  by_cases hrun : (r.after limits w (k / n)).1.status = .running
  · obtain ⟨hdvd, hdiv, hmod, hfull⟩ | ⟨hdvd, hdiv, hmod, hless⟩ := div_mod_succ hn k
    · rw [if_pos ⟨hdvd, hrun⟩]
      exact h.heartbeat_due hrun hfull hdiv hmod
    · rw [if_neg fun hdue => hdvd hdue.1]
      exact h.heartbeat_waits hrun hless hdiv hmod
  · obtain ⟨hstill, hstopped⟩ := h.heartbeat_stopped hn hrun
    rw [hstill, if_neg fun hdue => hrun hdue.2]
    exact ⟨hstopped, rfl⟩

theorem Paced.heartbeats (hn : 0 < n) (h : Paced limits n r w key 0 d) (k : Nat) :
    Paced limits n r w key k (d.through (.replicate k .heartbeat)) := by
  induction k with
  | zero => exact h
  | succ k ih =>
    rw [List.replicate_succ', through_append]
    exact (ih.heartbeat hn).1

end Desk

end GridRobot
