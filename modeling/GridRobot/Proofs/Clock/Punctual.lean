import GridRobot.Clock.Rehearsal
import GridRobot.Proofs.Clock.Pacer

/-!
# Pacers in exact time

In exact time a pacer does not drift. By a watch that never goes back, and with sleeps that are
never too short, it has handed over after each batch as many heartbeats as whole intervals have
passed since it began, however late it woke and however long the batches before it took.

## Main definitions

* `Stroke` is what a pacer saw and did for one batch.
* `Pacer.Logs` says which strokes a pacer has made so far.
* `Stroke.Timely` says that the watch never went back, and that no sleep was too short.
* `Surroundings.Drives` says that batches are handed over to a clock, and that nothing else changes
  what it has counted.

## Main statements

* `Pacer.Logs.deadline_eq`: deadlines lie on a schedule that was fixed at the beginning.
* `Pacer.Logs.fired_eq_floor`: how many heartbeats have been handed over after a batch.
* `Pacer.Logs.beatCount_eq`: the clock has counted all of them.
* `Pacer.run_punctual`: what a pacer comes to, whenever it is stopped.
-/

namespace GridRobot

/-- What a pacer saw and did for one batch. -/
structure Stroke (τ : Type) where
  /-- What the watch showed when the batch began. -/
  before : τ
  /-- How long the pacer then wanted to sleep, if at all. -/
  slept : Option τ
  /-- What the watch showed when the heartbeats that were due were counted. -/
  after : τ
  size : Nat
  deriving Repr, DecidableEq

namespace Stroke

variable {τ : Type}

/-- Number of heartbeats of some batches. -/
def total (log : List (Stroke τ)) : Nat :=
  (log.map size).sum

@[simp] theorem total_concat (log : List (Stroke τ)) (k : Stroke τ) :
    total (log ++ [k]) = total log + k.size := by
  simp [total]

/-- What a watch showed one after the other, from the beginning on. -/
def readings (start : τ) (log : List (Stroke τ)) : List τ :=
  start :: log.flatMap fun k => [k.before, k.after]

/-- The watch never went back, and no sleep was shorter than it should be. -/
structure Timely (start : ℚ) (log : List (Stroke ℚ)) : Prop where
  mono : (readings start log).Pairwise (· ≤ ·)
  slept : ∀ k ∈ log, ∀ d ∈ k.slept, k.before + d ≤ k.after

theorem Timely.before_le_after {start : ℚ} {log : List (Stroke ℚ)} (h : Timely start log)
    {k : Stroke ℚ} (hk : k ∈ log) : k.before ≤ k.after := by
  obtain ⟨earlier, later, rfl⟩ := List.append_of_mem hk
  have hmono := h.mono
  rw [readings, List.flatMap_append, List.flatMap_cons] at hmono
  have hrest := (List.pairwise_append.1 (List.pairwise_cons.1 hmono).2).2.1
  exact (List.pairwise_cons.1 hrest).1 k.after (by simp)

end Stroke

namespace Pacer

/-! ### Strokes -/

section Strokes

variable {τ σ : Type} [Seconds τ] {e : Surroundings τ σ} {p p' : Pacer τ} {s s' : σ}
  {log : List (Stroke τ)} {batches : List Nat}

/-- What a pacer sees for its next batch, if that is of some size. -/
def stroke (e : Surroundings τ σ) (p : Pacer τ) (s : σ) (n : Nat) : Stroke τ :=
  ⟨(e.now s).1, p.delay? (e.now s).1, (awake e p s).1, n⟩

/-- A pacer has made some strokes, each of them while there were to be further heartbeats. -/
inductive Logs (e : Surroundings τ σ) (p : Pacer τ) (s : σ) :
    List (Stroke τ) → Pacer τ → σ → Prop where
  | nothing : Logs e p s [] p s
  | batch {log : List (Stroke τ)} {p' : Pacer τ} {s' : σ} {n : Nat} (earlier : Logs e p s log p' s')
      (goes : e.goesOn s' = true) (due : p'.due (awake e p' s').1 = .ok n) :
      Logs e p s (log ++ [p'.stroke e s' n]) (p'.advance n) (e.beat n (awake e p' s').2)

/-- What a pacer has handed over can be logged. -/
theorem Hands.exists_logs (h : Hands e p s batches p' s') :
    ∃ log, Logs e p s log p' s' ∧ log.map Stroke.size = batches := by
  induction h with
  | nothing => exact ⟨[], .nothing, rfl⟩
  | batch _ goes due ih =>
    obtain ⟨log, hlog, rfl⟩ := ih
    exact ⟨_, hlog.batch goes due, by simp [stroke]⟩

namespace Logs

/-- The last stroke was made by the pacer that the strokes before it had come to. -/
theorem last {k : Stroke τ} (h : Logs e p s (log ++ [k]) p' s') :
    ∃ q t, Logs e p s log q t ∧ q.due (awake e q t).1 = .ok k.size ∧ k = q.stroke e t k.size ∧
      p' = q.advance k.size := by
  generalize hall : log ++ [k] = all at h
  cases h with
  | nothing => simp at hall
  | @batch _ q t n earlier _ due =>
    obtain ⟨rfl, hlast⟩ := List.append_inj' hall rfl
    obtain rfl : k = q.stroke e t n := by simpa using hlast
    exact ⟨q, t, earlier, due, rfl, rfl⟩

theorem fired_eq (h : Logs e p s log p' s') : p'.fired = p.fired + Stroke.total log := by
  induction h with
  | nothing => rfl
  | @batch log q t n _ _ _ ih =>
    rw [Stroke.total_concat, ← Nat.add_assoc, ← ih]
    rfl

theorem interval_eq (h : Logs e p s log p' s') : p'.interval = p.interval := by
  induction h with
  | nothing => rfl
  | batch _ _ _ ih => exact ih

end Logs

end Strokes

/-! ### The schedule -/

section Schedule

variable {σ : Type} {e : Surroundings ℚ σ} {p' : Pacer ℚ} {s s' : σ} {log : List (Stroke ℚ)}
  {k : Stroke ℚ} {interval start : ℚ}

/-- The next deadline is one interval after as many as heartbeats have been handed over. -/
theorem Logs.deadline_eq (h : Logs e (.begin interval start) s log p' s') :
    p'.deadline = start + (p'.fired + 1) * interval := by
  induction h with
  | nothing =>
    show start + interval = start + ((0 : ℕ) + 1) * interval
    rw [Nat.cast_zero, zero_add, one_mul]
  | @batch log q t n earlier _ _ ih =>
    show q.deadline + n * q.interval = start + ((q.fired + n : ℕ) + 1) * interval
    have hinterval : q.interval = interval := earlier.interval_eq
    rw [ih, hinterval, Nat.cast_add]
    ring

theorem due_eq (p : Pacer ℚ) (now : ℚ) :
    p.due now = .ok (1 + ⌊(now - p.deadline) / p.interval⌋.toNat) := rfl

/-- A pacer that slept long enough, or not at all, wakes at its deadline or later. -/
theorem deadline_le_after {p : Pacer ℚ} {n : Nat}
    (hwatch : (p.stroke e s n).before ≤ (p.stroke e s n).after)
    (hslept : ∀ d ∈ (p.stroke e s n).slept, (p.stroke e s n).before + d ≤ (p.stroke e s n).after) :
    p.deadline ≤ (p.stroke e s n).after := by
  by_cases hpos : 0 < p.deadline - (e.now s).1
  · have hdelay : (p.stroke e s n).slept = some (p.deadline - (e.now s).1) := by
      show (if decide (0 < p.deadline - (e.now s).1) = true then _ else none) = _
      rw [if_pos (decide_eq_true hpos)]
      rfl
    have hlong := hslept _ hdelay
    have hbefore : (p.stroke e s n).before = (e.now s).1 := rfl
    linarith
  · have hbefore : (p.stroke e s n).before = (e.now s).1 := rfl
    linarith

/-- As many heartbeats are due as whole intervals have passed and have not been paid for. -/
theorem floor_elapsed {deadline now : ℚ} {fired : Nat} (hinterval : 0 < interval)
    (hdeadline : deadline = start + (fired + 1) * interval) (hle : deadline ≤ now) :
    ((fired + (1 + ⌊(now - deadline) / interval⌋.toNat) : ℕ) : ℤ) = ⌊(now - start) / interval⌋ := by
  have hsplit : (now - start) / interval = (now - deadline) / interval + ((fired + 1 : ℕ) : ℚ) := by
    rw [hdeadline, Nat.cast_add, Nat.cast_one]
    field_simp
    ring
  have hnonneg : 0 ≤ ⌊(now - deadline) / interval⌋ :=
    Int.floor_nonneg.2 (div_nonneg (sub_nonneg.2 hle) hinterval.le)
  rw [hsplit, Int.floor_add_natCast]
  omega

/-- After a batch as many heartbeats have been handed over as whole intervals have passed. -/
theorem Logs.fired_eq_floor (hinterval : 0 < interval)
    (h : Logs e (.begin interval start) s (log ++ [k]) p' s')
    (htimely : Stroke.Timely start (log ++ [k])) :
    (p'.fired : ℤ) = ⌊(k.after - start) / interval⌋ := by
  obtain ⟨q, t, earlier, hdue, hk, rfl⟩ := h.last
  have hmem : k ∈ log ++ [k] := by simp
  have hwoke : q.deadline ≤ k.after := by
    have hwatch := htimely.before_le_after hmem
    have hslept := htimely.slept k hmem
    rw [hk] at hwatch hslept ⊢
    exact deadline_le_after hwatch hslept
  have hafter : k.after = (awake e q t).1 := congrArg Stroke.after hk
  have hsize : k.size = 1 + ⌊(k.after - q.deadline) / interval⌋.toNat := by
    have hq : q.interval = interval := earlier.interval_eq
    rw [← hafter, due_eq, hq] at hdue
    exact (Except.ok.inj hdue).symm
  show ((q.fired + k.size : ℕ) : ℤ) = _
  rw [hsize]
  exact floor_elapsed hinterval earlier.deadline_eq hwoke

end Schedule

end Pacer

/-! ### The clock that is driven -/

namespace Surroundings

variable {τ σ κ : Type}

/-- Batches are handed over to a clock, and nothing else changes what it has counted. -/
structure Drives (e : Surroundings τ σ) (hook : κ → Hook) (clock : σ → Clock κ) : Prop where
  now : ∀ s, (clock (e.now s).2).beatCount = (clock s).beatCount
  sleep : ∀ d s, (clock (e.sleep d s)).beatCount = (clock s).beatCount
  /-- The clock counts the batch; its subscribers may do whatever they like but count. -/
  beat : ∀ (n : Nat) s, ∃ counted calls, (clock s).tick? hook n = some (counted, calls) ∧
    (clock (e.beat n s)).beatCount = counted.beatCount

variable [Seconds τ] {e : Surroundings τ σ} {hook : κ → Hook} {clock : σ → Clock κ} {p p' : Pacer τ}
  {s s' : σ} {log : List (Stroke τ)}

theorem Drives.awake (h : e.Drives hook clock) (p : Pacer τ) (s : σ) :
    (clock (Pacer.awake e p s).2).beatCount = (clock s).beatCount := by
  unfold Pacer.awake
  rw [h.now]
  cases p.delay? (e.now s).1 with
  | none => exact h.now s
  | some d => exact (h.sleep d _).trans (h.now s)

end Surroundings

/-- A clock counts a batch, whoever is subscribed. -/
theorem Clock.beatCount_of_tick? {κ : Type} {c counted : Clock κ} {hook : κ → Hook} {n : Nat}
    {calls : List (κ × Call)} (h : c.tick? hook n = some (counted, calls)) :
    counted.beatCount = c.beatCount + n := by
  unfold tick? at h
  split at h
  · cases h
  · split at h <;> cases h
    · omega
    · simp

/-- The clock has counted all heartbeats that were handed over. -/
theorem Pacer.Logs.beatCount_eq {τ σ κ : Type} [Seconds τ] {e : Surroundings τ σ} {hook : κ → Hook}
    {clock : σ → Clock κ} {p p' : Pacer τ} {s s' : σ} {log : List (Stroke τ)}
    (hclock : e.Drives hook clock) (h : Logs e p s log p' s') :
    (clock s').beatCount = (clock s).beatCount + Stroke.total log := by
  induction h with
  | nothing => rfl
  | @batch log q t n _ _ _ ih =>
    obtain ⟨counted, calls, htick, hbeat⟩ := hclock.beat n (awake e q t).2
    rw [hbeat, Clock.beatCount_of_tick? htick, hclock.awake, ih, Stroke.total_concat, Nat.add_assoc]
    rfl

/-! ### No drift -/

/-- A pacer does not drift, whatever decides when it stops. By a watch that never goes back, and
with sleeps that are never too short, it has handed over after each batch as many heartbeats as
whole intervals had passed since the beginning when that batch was counted. So no batch is empty, no
heartbeat comes before its time, and none that was due is left over: the next deadline is yet to
come. And a pacer always comes to a result, which is how much the clock has counted meanwhile. -/
theorem Pacer.run_punctual {σ κ : Type} {e : Surroundings ℚ σ} {hook : κ → Hook}
    {clock : σ → Clock κ} (hclock : e.Drives hook clock) {interval : ℚ} (hinterval : 0 < interval)
    (s : σ) :
    let start := (e.now s).1
    let first := Pacer.begin interval start
    (∀ log k p' s', Logs e first (e.now s).2 (log ++ [k]) p' s' → Stroke.Timely start (log ++ [k]) →
      p'.fired = Stroke.total log + k.size ∧ (p'.fired : ℤ) = ⌊(k.after - start) / interval⌋ ∧
        0 < k.size ∧ (∀ j ≤ p'.fired, start + j * interval ≤ k.after) ∧
        p'.deadline = start + (p'.fired + 1) * interval ∧ k.after < p'.deadline) ∧
    (∀ n, ∃ log p' s', run e n first (e.now s).2 = .ok (p', s') ∧
      Logs e first (e.now s).2 log p' s' ∧ log.length ≤ n ∧
      (log.length = n ∨ e.goesOn s' = false) ∧
      (clock s').beatCount = (clock s).beatCount + p'.fired) ∧
    ∀ milliseconds : ℕ, interval = milliseconds / 1000 →
      ∀ n, keep e milliseconds n s = run e n first (e.now s).2 := by
  intro start first
  refine ⟨?_, ?_, ?_⟩
  · intro log k p' s' hlog htimely
    have hfloor := hlog.fired_eq_floor hinterval htimely
    have hdeadline := hlog.deadline_eq
    have hfired : p'.fired = Stroke.total log + k.size := by
      rw [hlog.fired_eq, Stroke.total_concat]
      exact Nat.zero_add _
    obtain ⟨hbegun, hyet⟩ := Int.floor_eq_iff.1 hfloor.symm
    rw [Int.cast_natCast] at hbegun hyet
    rw [le_div_iff₀ hinterval] at hbegun
    rw [div_lt_iff₀ hinterval] at hyet
    refine ⟨hfired, hfloor, ?_, ?_, hdeadline, ?_⟩
    · obtain ⟨q, t, -, hdue, -⟩ := hlog.last
      exact due_pos hdue
    · intro j hj
      have hsooner : (j : ℚ) * interval ≤ p'.fired * interval :=
        mul_le_mul_of_nonneg_right (Nat.cast_le.2 hj) hinterval.le
      linarith
    · rw [hdeadline]
      linarith
  · intro n
    obtain ⟨batches, p', s', hands, hlength, ⟨hrun, hend⟩ | ⟨b, -, -, hdue⟩⟩ :=
      run_hands e n first (e.now s).2
    · obtain ⟨log, hlog, rfl⟩ := hands.exists_logs
      rw [List.length_map] at hlength hend
      refine ⟨log, p', s', hrun, hlog, hlength, hend, ?_⟩
      rw [hlog.beatCount_eq hclock, hclock.now, hlog.fired_eq]
      exact congrArg _ (Nat.zero_add _).symm
    · -- exact times can always be counted
      rw [due_eq] at hdue
      cases hdue
  · rintro milliseconds rfl n
    rfl

/-- In a rehearsal it is the clock of the rehearsal that is driven. -/
theorem Rehearsal.drives {τ : Type} [Seconds τ] (goal : Int) :
    (surroundings goal : Surroundings τ (Rehearsal τ)).Drives (fun _ => Hook.batch) clock where
  now _ := rfl
  sleep _ _ := rfl
  beat n r := by
    show ∃ counted calls, _ ∧ (r.beat n).clock.beatCount = _
    unfold Rehearsal.beat
    cases htick : r.clock.tick? (fun _ => Hook.batch) n with
    | some counted => exact ⟨counted.1, counted.2, rfl, rfl⟩
    | none =>
      unfold Clock.tick? at htick
      split at htick
      · omega
      · split at htick <;> cases htick

/-- A rehearsal by a clock of eight milliseconds; its first batch is dealt with for sixteen. -/
def slowRehearsal : Rehearsal ℚ :=
  ⟨0, ⟨8, 0, [()]⟩, [], [2 / 125], [], []⟩

/-- The first batch is of one heartbeat and ends three intervals after the beginning, just when the
third heartbeat is due; so the second batch is of two heartbeats. -/
theorem Pacer.run_punctual_slow :
    let e : Surroundings ℚ (Rehearsal ℚ) := Rehearsal.surroundings 3
    let log : List (Stroke ℚ) := [⟨0, some (1 / 125), 1 / 125, 1⟩]
    let k : Stroke ℚ := ⟨3 / 125, none, 3 / 125, 2⟩
    e.Drives (fun _ => Hook.batch) Rehearsal.clock ∧ (0 : ℚ) < 1 / 125 ∧
      Stroke.Timely 0 (log ++ [k]) ∧
      ∃ p' s', Logs e (.begin (1 / 125) 0) slowRehearsal (log ++ [k]) p' s' ∧ p'.fired = 3 ∧
        (p'.fired : ℤ) = ⌊(k.after - 0) / (1 / 125)⌋ ∧ k.after < p'.deadline := by
  intro e log k
  have hinterval : (0 : ℚ) < 1 / 125 := by norm_num
  have htimely : Stroke.Timely 0 (log ++ [k]) := by
    constructor
    · simp [Stroke.readings, log, k]
      norm_num
    · simp [log, k]
  obtain ⟨p', s', hlogs⟩ :
      ∃ p' s', Logs e (.begin (1 / 125) 0) slowRehearsal (log ++ [k]) p' s' := by
    let first : Pacer ℚ := .begin (1 / 125) 0
    have hnothing : Logs e first slowRehearsal [] first slowRehearsal := .nothing
    have hone := hnothing.batch (n := 1) (by decide +kernel) (by decide +kernel)
    have htwo := hone.batch (n := 2) (by decide +kernel) (by decide +kernel)
    have hlog : [first.stroke e slowRehearsal 1] ++
        [(first.advance 1).stroke e (e.beat 1 (awake e first slowRehearsal).2) 2] = log ++ [k] := by
      decide +kernel
    exact ⟨_, _, hlog ▸ htwo⟩
  obtain ⟨hfired, hfloor, -, -, -, hyet⟩ :=
    (Pacer.run_punctual (Rehearsal.drives 3) hinterval slowRehearsal).1 log k p' s' hlogs htimely
  exact ⟨Rehearsal.drives 3, hinterval, htimely, p', s', hlogs, hfired, hfloor, hyet⟩

end GridRobot
