import GridRobot.Proofs.Run.Outcome
import GridRobot.Proofs.Scheduler.Desk

/-!
# Schedulers whose parts fit together

Between two requests the parts of a scheduler fit together: the countdown is within the period, what
is animated is there, a run that is held can go on, and a fault is kept exactly as long as the
scheduler stands still because of it. Nothing that a scheduler does by itself spoils that.

## Main definitions

* `Scheduler.Sound` says what was said above.
* `Scheduler.setting` is what a scheduler was made with.

## Main statements

* `Scheduler.begin_eq_ok`, `Scheduler.start_eq_ok`, `Scheduler.resume_eq_ok` and
  `Scheduler.readyStep_eq_ok`: what a scheduler does when it does not refuse.
* `Scheduler.begin_refused` and those like it: why it refuses.
* `Scheduler.Sound.begun`, `Scheduler.Sound.settled`: a run that is begun, and a step that was made.
-/

namespace GridRobot

namespace Scheduler

variable {κ : Type} {s s' : Scheduler κ} {p : Option Program} {world : Option κ}

/-- The parts of a scheduler fit together. -/
structure Sound (s : Scheduler κ) : Prop where
  countdown_pos : 1 ≤ s.countdown
  countdown_le : s.countdown ≤ s.period
  resting : s.stepping = false
  animated : s.phase = .running → s.held.isSome
  live : ∀ h ∈ s.held, h.run.status = .running ∧ h.run.Linked
  faulted_iff : s.phase = .faulted ↔ s.lastFault.isSome
  faulted_free : s.phase = .faulted → s.held = none

theorem Sound.period_pos (h : s.Sound) : 1 ≤ s.period :=
  Nat.le_trans h.countdown_pos h.countdown_le

theorem Sound.phase_ne_faulted {held : Held κ} (h : s.Sound) (hheld : s.held = some held) :
    s.phase ≠ .faulted := by
  intro hfaulted
  have hnone := h.faulted_free hfaulted
  rw [hheld] at hnone
  cases hnone

theorem Sound.lastFault_eq_none {held : Held κ} (h : s.Sound) (hheld : s.held = some held) :
    s.lastFault = none := by
  have hphase := h.phase_ne_faulted hheld
  rw [Ne, h.faulted_iff] at hphase
  simpa using hphase

theorem Sound.phase_ne_running (h : s.Sound) (hheld : s.held = none) : s.phase ≠ .running := by
  intro hrunning
  have hsome := h.animated hrunning
  rw [hheld] at hsome
  cases hsome

theorem Sound.suspended?_eq (h : s.Sound) : s.suspended? = s.held := by
  unfold suspended?
  -- no held run has ended, so the filter lets it pass
  cases hheld : s.held with
  | none => rfl
  | some held =>
    have hrunning := (h.live held hheld).1
    simp [Option.filter, Run.terminated, hrunning]

theorem begin_eq_ok : s.begin p world = .ok s' ↔
    ∃ q key run, p = some q ∧ world = some key ∧ Run.start? q = some run ∧
      s' = { s with held := some ⟨run, key⟩, lastFault := none, countdown := s.period } := by
  unfold begin
  constructor
  · intro h
    split at h
    · cases h
    · split at h
      · cases h
      · split at h
        · cases h
        · rename_i run hrun
          cases h
          exact ⟨_, _, run, rfl, rfl, hrun, rfl⟩
  · rintro ⟨q, key, run, rfl, rfl, hrun, rfl⟩
    simp [hrun]

theorem start_eq_ok : s.start p world = .ok s' ↔
    ∃ ready, s.begin p world = .ok ready ∧ { ready with phase := .running } = s' := by
  simp only [start, bind_eq_ok, Except.ok.injEq]

theorem resume_eq_ok : s.resume = .ok s' ↔
    (s.phase = .running ∧ s = s') ∨
      (s.phase ≠ .running ∧ s.suspended?.isSome ∧
        { s with countdown := s.period, phase := .running } = s') := by
  unfold resume
  by_cases hrunning : s.phase = .running
  · simp [hrunning]
  · cases hs : s.suspended? <;> simp [hrunning]

theorem readyStep_eq_ok : s.readyStep p world = .ok s' ↔
    s.stepping = false ∧
      ((s.suspended?.isSome ∧ { s with phase := .idle } = s') ∨
        (s.suspended? = none ∧
          ∃ ready, s.begin p world = .ok ready ∧ { ready with phase := .idle } = s')) := by
  unfold readyStep
  cases hstepping : s.stepping with
  | true => simp
  | false =>
    cases hs : s.suspended? with
    | some held => simp [bind_eq_ok, hstepping]
    | none => simp [bind_eq_ok]

theorem begin_refused {reason : Refusal} (hp : ∀ q ∈ p, q.Linked)
    (h : s.begin p world = .error reason) : reason ∈ [Refusal.programNeeded, .noWorld] := by
  unfold begin at h
  split at h
  · cases h
    simp
  · rename_i q
    split at h
    · cases h
      simp
    · obtain ⟨run, hrun, _⟩ := Run.start?_linked (hp q rfl)
      simp [hrun] at h

theorem start_refused {reason : Refusal} (hp : ∀ q ∈ p, q.Linked)
    (h : s.start p world = .error reason) : reason ∈ [Refusal.programNeeded, .noWorld] := by
  rcases bind_eq_error.1 h with hbegin | ⟨ready, _, hready⟩
  · exact begin_refused hp hbegin
  · cases hready

theorem readyStep_refused {reason : Refusal} (hresting : s.stepping = false)
    (hp : ∀ q ∈ p, q.Linked) (h : s.readyStep p world = .error reason) :
    reason ∈ [Refusal.programNeeded, .noWorld] := by
  unfold readyStep at h
  rw [hresting, if_neg Bool.false_ne_true] at h
  split at h
  · rcases bind_eq_error.1 h with hready | ⟨ready, _, hready⟩
    · cases hready
    · cases hready
  · rcases bind_eq_error.1 h with hbegin | ⟨ready, _, hready⟩
    · exact begin_refused hp hbegin
    · cases hready

theorem resume_refused {reason : Refusal} (h : s.resume = .error reason) :
    reason ∈ [Refusal.nothingSuspended] := by
  unfold resume at h
  split at h
  · cases h
  · split at h
    · cases h
      simp
    · cases h

theorem allowAction_refused {reason : Refusal} (h : s.allowAction world = .error reason) :
    reason ∈ [Refusal.programRuns, .noWorld] := by
  unfold allowAction at h
  split at h
  · cases h
    simp
  · split at h
    · cases h
      simp
    · cases h

/-- What a heartbeat does to a scheduler that is not in a step: it counts down, and starts again from
the period when a step is due. -/
theorem beat_eq (h : s.stepping = false) :
    s.beat = (s, false) ∧ s.phase ≠ .running ∨
      s.phase = .running ∧
        ((1 < s.countdown ∧ s.beat = ({ s with countdown := s.countdown - 1 }, false)) ∨
          (s.countdown ≤ 1 ∧ s.beat = ({ s with countdown := s.period }, true))) := by
  unfold beat
  by_cases hrunning : s.phase = .running
  · right
    by_cases hcount : 1 < s.countdown
    · simp [h, hrunning, hcount]
    · have hle : s.countdown ≤ 1 := by omega
      simp [h, hrunning, hcount, hle]
  · left
    simp [hrunning]

/-- What a scheduler was made with. -/
def setting (s : Scheduler κ) : Limits × Nat :=
  (s.limits, s.period)

theorem begin_setting (h : s.begin p world = .ok s') : s'.setting = s.setting := by
  obtain ⟨_, _, _, _, _, _, rfl⟩ := begin_eq_ok.1 h
  rfl

theorem start_setting (h : s.start p world = .ok s') : s'.setting = s.setting := by
  obtain ⟨ready, hbegin, rfl⟩ := start_eq_ok.1 h
  exact (begin_setting hbegin :)

theorem readyStep_setting (h : s.readyStep p world = .ok s') : s'.setting = s.setting := by
  rcases (readyStep_eq_ok.1 h).2 with ⟨_, rfl⟩ | ⟨_, ready, hbegin, rfl⟩
  · rfl
  · exact (begin_setting hbegin :)

theorem resume_setting (h : s.resume = .ok s') : s'.setting = s.setting := by
  rcases resume_eq_ok.1 h with ⟨_, rfl⟩ | ⟨_, _, rfl⟩ <;> rfl

@[simp] theorem beat_setting : s.beat.1.setting = s.setting := by
  unfold beat
  split
  · rfl
  · split <;> rfl

@[simp] theorem settle_setting {r : StepResult} : (s.settle r).setting = s.setting := by
  cases r <;> rfl

theorem fresh_sound {limits : Limits} {n : Nat} (hn : 1 ≤ n) :
    (fresh limits n : Scheduler κ).Sound where
  countdown_pos := hn
  countdown_le := Nat.le_refl n
  resting := rfl
  animated := nofun
  live := nofun
  faulted_iff := by simp [fresh]
  faulted_free := nofun

theorem ofInts_sound {limits : Limits} {n : Int} (h : ofInts limits n = some s) : s.Sound := by
  unfold ofInts at h
  by_cases hn : n ≤ 0
  · simp [hn] at h
  · rw [if_neg hn, Option.some.injEq] at h
    subst h
    exact fresh_sound (by omega)

theorem ofInts_setting {limits : Limits} {n : Int} (h : ofInts limits n = some s) :
    s.held = none ∧ s.limits = limits ∧ (s.period : Int) = n := by
  unfold ofInts at h
  by_cases hn : n ≤ 0
  · simp [hn] at h
  · rw [if_neg hn, Option.some.injEq] at h
    subst h
    exact ⟨rfl, rfl, Int.toNat_of_nonneg (by omega)⟩

theorem Sound.begun (h : s.Sound) (hp : ∀ q ∈ p, q.Linked) {phase : Phase}
    (hphase : phase ≠ .faulted) (hbegin : s.begin p world = .ok s') :
    ({ s' with phase := phase } : Scheduler κ).Sound := by
  obtain ⟨q, key, run, rfl, rfl, hrun, rfl⟩ := begin_eq_ok.1 hbegin
  obtain ⟨run', hrun', hlinked, _, hstatus⟩ := Run.start?_linked (hp q rfl)
  obtain rfl : run = run' := Option.some.inj (hrun.symm.trans hrun')
  refine ⟨h.period_pos, Nat.le_refl _, h.resting, fun _ => rfl, ?_, ?_, ?_⟩
  · rintro _ ⟨⟩
    exact ⟨hstatus, hlinked⟩
  · simp [hphase]
  · intro hfaulted
    exact absurd hfaulted hphase

theorem Sound.clear (h : s.Sound) : s.clear.Sound where
  countdown_pos := h.period_pos
  countdown_le := Nat.le_refl _
  resting := h.resting
  animated := nofun
  live := nofun
  faulted_iff := by simp [Scheduler.clear]
  faulted_free := nofun

theorem Sound.withPhase {held : Held κ} (h : s.Sound) (hheld : s.held = some held) {phase : Phase}
    (hphase : phase ≠ .faulted) : ({ s with phase := phase } : Scheduler κ).Sound where
  countdown_pos := h.countdown_pos
  countdown_le := h.countdown_le
  resting := h.resting
  animated := fun _ => by simp [hheld]
  live := h.live
  faulted_iff := by simp [hphase, h.lastFault_eq_none hheld]
  faulted_free := fun hfaulted => absurd hfaulted hphase

theorem Sound.withCountdown (h : s.Sound) {n : Nat} (hpos : 1 ≤ n) (hle : n ≤ s.period) :
    ({ s with countdown := n } : Scheduler κ).Sound where
  countdown_pos := hpos
  countdown_le := hle
  resting := h.resting
  animated := h.animated
  live := h.live
  faulted_iff := h.faulted_iff
  faulted_free := h.faulted_free

theorem Sound.resume (h : s.Sound) (hresume : s.resume = .ok s') : s'.Sound := by
  rcases resume_eq_ok.1 hresume with ⟨_, rfl⟩ | ⟨_, hsome, rfl⟩
  · exact h
  · rw [h.suspended?_eq] at hsome
    obtain ⟨held, hheld⟩ := Option.isSome_iff_exists.1 hsome
    exact (h.withCountdown h.period_pos (Nat.le_refl _)).withPhase hheld nofun

theorem Sound.beat (h : s.Sound) : s.beat.1.Sound := by
  rcases beat_eq h.resting with ⟨hbeat, _⟩ | ⟨_, ⟨hcount, hbeat⟩ | ⟨_, hbeat⟩⟩
  · rw [hbeat]
    exact h
  · rw [hbeat]
    have hle := h.countdown_le
    exact h.withCountdown (by omega) (by omega)
  · rw [hbeat]
    exact h.withCountdown h.period_pos (Nat.le_refl _)

theorem Sound.held_of_due (h : s.Sound) (hdue : s.beat.2 = true) : s.held.isSome := by
  rcases beat_eq h.resting with ⟨hbeat, _⟩ | ⟨hrunning, _⟩
  · rw [hbeat] at hdue
    cases hdue
  · exact h.animated hrunning

/-- A scheduler settles the result of a step of its run: it goes on with the run, or lets it go. -/
theorem Sound.settled {held : Held κ} (h : s.Sound) (hheld : s.held = some held) {run : Run}
    {x : StepResult} (hlinked : run.Linked) (hstatus : run.status = .running ↔ x = .continued) :
    (({ s with stepping := false, held := some ⟨run, held.world⟩ } : Scheduler κ).settle
      x).Sound := by
  have hphase := h.phase_ne_faulted hheld
  have hfault := h.lastFault_eq_none hheld
  -- only a step that goes on leaves the run with the scheduler
  cases x with
  | continued =>
    refine ⟨h.countdown_pos, h.countdown_le, rfl, fun _ => rfl, ?_, h.faulted_iff, ?_⟩
    · rintro _ ⟨⟩
      exact ⟨hstatus.2 rfl, hlinked⟩
    · intro hfaulted
      exact absurd hfaulted hphase
  | finished =>
    refine ⟨h.countdown_pos, h.countdown_le, rfl, nofun, nofun, ?_, nofun⟩
    simp [settle, hfault]
  | fault f =>
    refine ⟨h.countdown_pos, h.countdown_le, rfl, nofun, nofun, ?_, fun _ => rfl⟩
    simp [settle]

theorem settled_eq {held other : Held κ} {x : StepResult} (hs : s.held = some held)
    (h : (s.settle x).held = some other) : other = held := by
  rcases settle_held (r := x) (s := s) with hsettle | hsettle
  · exact Option.some.inj ((h.symm.trans hsettle).trans hs)
  · have hnone := h.symm.trans hsettle
    cases hnone

end Scheduler

end GridRobot
