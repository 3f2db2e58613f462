import GridRobot.Proofs.Scheduler.Steady

/-!
# What a request leaves alone

The world of a run changes only by actions, and of these a desk tells. So what it does not answer by
a result has left every world as it was; and as long as no world is there, a desk that stands still
goes on standing still.

## Main statements

* `Run.step_missing_world`: a procedure that is not there leaves the world as it was.
* `Desk.Steady.perform_worlds`: a request that is not answered by a result changes no world.
* `Desk.Sound.react_refused`: a request is refused before anything is changed.
* `Desk.Still.perform`: a request without a world that is there begins nothing.
-/

namespace GridRobot

theorem Advance.missing_world {limits : Limits} {p : Program} {w after : World} {turns : Nat}
    {stack stack' : List Frame} {result : Except MissingProcedure StepResult}
    {missing : MissingProcedure} (h : Advance limits p w turns stack result stack' after)
    (hmissing : result = .error missing) : after = w := by
  induction h with
  | turn _ _ ih => exact ih hmissing
  | halt h =>
    cases h with
    | acted _ _ => cases hmissing
    | _ => rfl

theorem Run.step_missing_world {limits : Limits} {r : Run} {w : World}
    {missing : MissingProcedure} (hrun : r.status = .running)
    (h : (r.step limits w).result = .error missing) : (r.step limits w).world = w := by
  obtain ⟨result, stack', after, hadv, hout⟩ := step_spec limits w hrun
  rw [hout] at h ⊢
  exact hadv.missing_world h

namespace Worlds

variable {κ : Type} [DecidableEq κ] {ws : Worlds κ} {key : κ} {w : World}

theorem get?_set_same (h : ws.get? key = some w) (other : κ) :
    (ws.set key w).get? other = ws.get? other := by
  by_cases hother : other = key
  · rw [hother, get?_set_self (by rw [h]; rfl), h]
  · exact get?_set_ne hother

end Worlds

namespace Desk

variable {κ : Type} [DecidableEq κ] {d : Desk κ} {q : Request κ}

theorem Steady.stepOutcome_worlds (hd : d.Steady)
    (h : ∀ r, d.stepOutcome.answer ≠ .result r) (key : κ) :
    d.stepOutcome.desk.worlds.get? key = d.worlds.get? key := by
  cases hheld : d.scheduler.held with
  | none =>
    have hnone : d.toStep? = none := by simp [toStep?, hheld]
    simp [Desk.stepOutcome, makeStep, hnone]
  | some held =>
    obtain ⟨hrun, hsome⟩ := hd.live held hheld
    obtain ⟨w, hw⟩ := Option.isSome_iff_exists.1 hsome
    rw [stepOutcome_spec hheld hw] at h ⊢
    cases hresult : (held.run.step d.scheduler.limits w).result with
    | ok x =>
      simp only [hresult] at h
      exact absurd rfl (h x)
    | error missing =>
      simp only
      rw [Run.step_missing_world hrun hresult]
      exact Worlds.get?_set_same hw key

/-- A request that is not answered by a result changes no world, unless it stands for several
heartbeats. -/
theorem Steady.perform_worlds (hd : d.Steady) (hq : ∀ n, q ≠ .tick n)
    (h : ∀ r, (d.perform q).answer ≠ .result r) (key : κ) :
    (d.perform q).desk.worlds.get? key = d.worlds.get? key := by
  cases q with
  | start p w =>
    cases hbegin : d.scheduler.begin p (d.present w) with
    | error reason => rw [perform_start_of_refused hbegin]
    | ok ready => rw [perform_start_of_begun hbegin]
  | step p w =>
    cases hfree : d.scheduler.suspended? with
    | some held =>
      have hperform := perform_step_of_suspended (p := p) (k := w) hd.resting
        (by rw [hfree]; rfl)
      rw [hperform] at h ⊢
      exact hd.idled.stepOutcome_worlds h key
    | none =>
      cases hbegin : d.scheduler.begin p (d.present w) with
      | error reason => rw [perform_step_of_refused hd.resting hfree hbegin]
      | ok ready =>
        rw [perform_step_of_begun hd.resting hfree hbegin] at h ⊢
        exact (hd.begun .idle hbegin).stepOutcome_worlds h key
  | action a w =>
    cases hallow : d.scheduler.allowAction (d.present w) with
    | error reason => simp [Desk.perform, react, hallow]
    | ok k =>
      cases hw : d.worlds.get? k with
      | none => simp [Desk.perform, react, act, hallow, hw]
      | some world => simp [Desk.perform, react, act, hallow, hw] at h
  | resume =>
    cases hresume : d.scheduler.resume <;> simp [Desk.perform, react, adopt, hresume]
  | stop => rfl
  | reset => rfl
  | heartbeat =>
    rw [perform_heartbeat] at h ⊢
    by_cases hdue : d.scheduler.beat.2 = true
    · rw [if_pos hdue] at h ⊢
      exact hd.beat.stepOutcome_worlds h key
    · rw [if_neg hdue]
  | tick n => exact absurd rfl (hq n)
  | limits => rfl

/-- A request that a sound desk refuses is refused at once, before anything is changed. -/
theorem Sound.react_refused {reason : Refusal} (hd : d.Sound) (hq : q.Linked)
    (h : (d.perform q).answer = .refused reason) :
    d.react q = (.answer (.refused reason), d) := by
  have hreason := (perform_answers hd hq).refused reason h
  have of_error (other : Refusal) (hreact : d.react q = (.answer (.refused other), d)) :
      d.react q = (.answer (.refused reason), d) := by
    rw [Desk.perform, hreact] at h
    obtain rfl : other = reason := by simpa using h
    exact hreact
  cases q with
  | start p w =>
    cases hstart : d.scheduler.start p (d.present w) with
    | error other => exact of_error other (by simp only [react, hstart, adopt])
    | ok s => simp [Desk.perform, react, adopt, hstart] at h
  | step p w =>
    cases hready : d.scheduler.readyStep p (d.present w) with
    | error other => exact of_error other (by simp only [react, hready, adopt])
    | ok ready =>
      -- the step that is then made is not refused
      obtain ⟨hsound, hheld⟩ := hd.readied hq hready
      simp only [Desk.perform, react, adopt, hready] at h
      exact absurd h (hsound.stepOutcome_ne_refused hheld reason)
  | resume =>
    cases hresume : d.scheduler.resume with
    | error other => exact of_error other (by simp only [react, hresume, adopt])
    | ok s => simp [Desk.perform, react, adopt, hresume] at h
  | action a w =>
    cases hallow : d.scheduler.allowAction (d.present w) with
    | error other => exact of_error other (by simp only [react, hallow])
    | ok key =>
      cases hw : d.worlds.get? key with
      | none => exact of_error .noWorld (by simp only [react, hallow, act, hw])
      | some world => simp [Desk.perform, react, act, hallow, hw] at h
  | _ => exact absurd hreason List.not_mem_nil

theorem Sound.perform_refused {reason : Refusal} (hd : d.Sound) (hq : q.Linked)
    (h : (d.perform q).answer = .refused reason) : (d.perform q).desk = d := by
  rw [Desk.perform, hd.react_refused hq h]

/-- The desk stands still and holds no run. -/
def Still (d : Desk κ) : Prop :=
  d.scheduler.phase = .idle ∧ d.scheduler.held = none

/-- A desk that stands still goes on standing still if no world is there with the request. -/
theorem Still.perform (hd : d.Steady) (hstill : d.Still) (hq : d.present q.world? = none) :
    (d.perform q).desk.Still := by
  obtain ⟨hphase, hheld⟩ := hstill
  have hfree : d.scheduler.suspended? = none := hd.suspended?_eq.trans hheld
  have hrefused (p : Option Program) : ∃ reason,
      d.scheduler.begin p (d.present q.world?) = .error reason := by
    rw [hq]
    cases p <;> exact ⟨_, rfl⟩
  cases q with
  | start p w =>
    obtain ⟨reason, hbegin⟩ := hrefused p
    rw [perform_start_of_refused (k := w) hbegin]
    exact ⟨hphase, hheld⟩
  | step p w =>
    obtain ⟨reason, hbegin⟩ := hrefused p
    rw [perform_step_of_refused (k := w) hd.resting hfree hbegin]
    exact ⟨hphase, hheld⟩
  | action a w =>
    unfold Still
    rw [action_scheduler]
    exact ⟨hphase, hheld⟩
  | resume =>
    have hresume : d.scheduler.resume = .error .nothingSuspended := by
      simp [Scheduler.resume, hphase, hfree]
    simp only [Desk.perform, react, hresume, adopt]
    exact ⟨hphase, hheld⟩
  | stop => exact ⟨rfl, rfl⟩
  | reset => exact ⟨rfl, rfl⟩
  | heartbeat =>
    have hbeat : d.scheduler.beat = (d.scheduler, false) := by simp [Scheduler.beat, hphase]
    rw [perform_heartbeat, hbeat]
    exact ⟨hphase, hheld⟩
  | tick n =>
    show (d.tick n.toNat).desk.Still
    rw [tick_of_not_running (by simp [hphase])]
    exact ⟨hphase, hheld⟩
  | limits => exact ⟨hphase, hheld⟩

end Desk

end GridRobot
