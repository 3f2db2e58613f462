import Mathlib.Algebra.Order.Floor.Defs
import Mathlib.Data.Rat.Floor
import GridRobot.Clock.Pacer

/-!
# The batches of a pacer

A pacer hands over a batch of heartbeats whenever there are to be further ones. Whatever the watch
shows and however long a sleep takes, no batch is empty. Where time is exact and passes only in
sleep, every batch is of one heartbeat.

## Main definitions

* `Pacer.awake` is the time, and what the pacer deals with, when a batch is handed over.
* `Pacer.Hands` says which batches a pacer has handed over so far.
* `Pacer.OneByOne` says that all batches of a pacer are of one heartbeat.
* `Surroundings.Still` says that time passes only in sleep.

## Main statements

* `Pacer.Hands.pos`: no batch is empty.
* `Pacer.run_hands`: what a pacer comes to is what its batches came to.
* `Pacer.OneByOne.run`: a pacer whose batches are of one heartbeat goes on to the end.
* `Surroundings.Still.oneByOne`: in exact time that passes only in sleep, heartbeats come one by one.
-/

namespace GridRobot

namespace Pacer

variable {τ σ : Type} [Seconds τ] {e : Surroundings τ σ} {p p' p'' : Pacer τ} {s s' s'' : σ}
  {batches later : List Nat}

/-- The time at which a batch is handed over, and what the pacer deals with then: it has slept until
the deadline, if that was still to come. -/
def awake (e : Surroundings τ σ) (p : Pacer τ) (s : σ) : τ × σ :=
  let looked := e.now s
  e.now (match p.delay? looked.1 with
    | some delay => e.sleep delay looked.2
    | none => looked.2)

/-- A pacer has handed over some batches, each of them while there were to be further heartbeats. -/
inductive Hands (e : Surroundings τ σ) (p : Pacer τ) (s : σ) :
    List Nat → Pacer τ → σ → Prop where
  | nothing : Hands e p s [] p s
  | batch {batches : List Nat} {p' : Pacer τ} {s' : σ} {n : Nat} (earlier : Hands e p s batches p' s')
      (goes : e.goesOn s' = true) (due : p'.due (awake e p' s').1 = .ok n) :
      Hands e p s (batches ++ [n]) (p'.advance n) (e.beat n (awake e p' s').2)

theorem turn_eq : turn e p s =
    (p.due (awake e p s).1).map fun n => (p.advance n, e.beat n (awake e p s).2) := by
  show (p.due (awake e p s).1 >>= fun n => .ok (p.advance n, e.beat n (awake e p s).2)) = _
  cases p.due (awake e p s).1 <;> rfl

theorem due_pos {now : τ} {n : Nat} (h : p.due now = .ok n) : 0 < n := by
  unfold due at h
  cases hwhole : Seconds.wholeIntervals (Seconds.sub now p.deadline) p.interval with
  | error b =>
    rw [hwhole] at h
    cases h
  | ok k =>
    rw [hwhole] at h
    obtain rfl := Except.ok.inj h
    omega

namespace Hands

theorem first {n : Nat} (goes : e.goesOn s = true) (due : p.due (awake e p s).1 = .ok n) :
    Hands e p s [n] (p.advance n) (e.beat n (awake e p s).2) :=
  nothing.batch goes due

theorem trans (h : Hands e p s batches p' s') (h' : Hands e p' s' later p'' s'') :
    Hands e p s (batches ++ later) p'' s'' := by
  induction h' with
  | nothing => rwa [List.append_nil]
  | batch _ goes due ih =>
    rw [← List.append_assoc]
    exact ih.batch goes due

/-- No batch is empty. -/
theorem pos (h : Hands e p s batches p' s') : ∀ n ∈ batches, 0 < n := by
  induction h with
  | nothing => exact List.forall_mem_nil _
  | batch _ _ due ih =>
    rw [List.forall_mem_append]
    exact ⟨ih, by simpa using due_pos due⟩

/-- The last batch was handed over because there were to be further heartbeats after the others. -/
theorem last {n : Nat} (h : Hands e p s (batches ++ [n]) p' s') :
    ∃ p'' s'', Hands e p s batches p'' s'' ∧ e.goesOn s'' = true := by
  generalize hall : batches ++ [n] = all at h
  cases h with
  | nothing => simp at hall
  | batch earlier goes _ =>
    obtain ⟨rfl, -⟩ := List.append_inj' hall rfl
    exact ⟨_, _, earlier, goes⟩

end Hands

/-- What a pacer comes to in at most so many batches is what its batches came to: either it has
handed over so many, or there are to be no further heartbeats, or those that are due cannot be
counted. -/
theorem run_hands (e : Surroundings τ σ) (n : Nat) (p : Pacer τ) (s : σ) :
    ∃ batches p' s', Hands e p s batches p' s' ∧ batches.length ≤ n ∧
      ((run e n p s = .ok (p', s') ∧ (batches.length = n ∨ e.goesOn s' = false)) ∨
        ∃ b, run e n p s = .error b ∧ e.goesOn s' = true ∧
          p'.due (awake e p' s').1 = .error b) := by
  induction n generalizing p s with
  | zero => exact ⟨[], p, s, .nothing, Nat.le_refl _, .inl ⟨rfl, .inl rfl⟩⟩
  | succ n ih =>
    unfold run
    cases hgoes : e.goesOn s with
    | false => exact ⟨[], p, s, .nothing, Nat.zero_le _, .inl ⟨by simp, .inr hgoes⟩⟩
    | true =>
      rw [if_pos rfl, turn_eq]
      cases hdue : p.due (awake e p s).1 with
      | error b => exact ⟨[], p, s, .nothing, Nat.zero_le _, .inr ⟨b, rfl, hgoes, hdue⟩⟩
      | ok k =>
        -- the first batch, and then those that are handed over from there
        obtain ⟨batches, p', s', hands, hlength, hcame⟩ :=
          ih (p.advance k) (e.beat k (awake e p s).2)
        refine ⟨[k] ++ batches, p', s', (Hands.first hgoes hdue).trans hands, ?_, ?_⟩
        · rw [List.length_append, List.length_singleton]
          omega
        · refine hcame.imp (fun ⟨hrun, hend⟩ => ⟨hrun, hend.imp_left fun hall => ?_⟩) id
          rw [List.length_append, List.length_singleton, hall, Nat.add_comm]

/-- Every batch that a pacer hands over is of one heartbeat, and can be counted. -/
def OneByOne (e : Surroundings τ σ) (p : Pacer τ) (s : σ) : Prop :=
  ∀ batches p' s', Hands e p s batches p' s' → e.goesOn s' = true →
    p'.due (awake e p' s').1 = .ok 1

namespace OneByOne

theorem batches_eq (h : OneByOne e p s) (hands : Hands e p s batches p' s') :
    batches = .replicate batches.length 1 := by
  induction hands with
  | nothing => rfl
  | batch earlier goes due ih =>
    obtain rfl := Except.ok.inj (due.symm.trans (h _ _ _ earlier goes))
    rw [List.length_append, List.length_singleton, List.replicate_succ', ← ih]

/-- A pacer whose batches are of one heartbeat comes to the end of a run. -/
theorem run (h : OneByOne e p s) (n : Nat) :
    ∃ k p' s', Hands e p s (.replicate k 1) p' s' ∧ Pacer.run e n p s = .ok (p', s') ∧
      (k = n ∨ e.goesOn s' = false) := by
  obtain ⟨batches, p', s', hands, -, ⟨hrun, hend⟩ | ⟨b, -, hgoes, hdue⟩⟩ := run_hands e n p s
  · refine ⟨batches.length, p', s', ?_, hrun, hend⟩
    rw [← h.batches_eq hands]
    exact hands
  · cases hdue.symm.trans (h _ _ _ hands hgoes)

end OneByOne

end Pacer

/-! ### Exact time -/

/-- Times in seconds as rational numbers, without any rounding. -/
instance : Seconds ℚ where
  ofMilliseconds n := .ok (n / 1000)
  zero := 0
  add := (· + ·)
  sub := (· - ·)
  times n interval := n * interval
  isPositive x := 0 < x
  wholeIntervals behind interval := .ok ⌊behind / interval⌋.toNat

/-- At the deadline one heartbeat is due. -/
theorem Pacer.due_deadline (p : Pacer ℚ) : p.due p.deadline = .ok 1 := by
  have hbehind : Seconds.sub p.deadline p.deadline = (0 : ℚ) := sub_self p.deadline
  have hwhole : Seconds.wholeIntervals (0 : ℚ) p.interval = .ok 0 := by
    show Except.ok ⌊0 / p.interval⌋.toNat = _
    rw [zero_div, Int.floor_zero]
    rfl
  rw [Pacer.due, hbehind, hwhole]
  rfl

namespace Surroundings

variable {σ : Type} {e : Surroundings ℚ σ}

/-- Time passes only in sleep, and a sleep takes as long as it should. -/
structure Still (e : Surroundings ℚ σ) (time : σ → ℚ) : Prop where
  now : ∀ s, e.now s = (time s, s)
  sleep : ∀ delay s, time (e.sleep delay s) = time s + delay
  beat : ∀ n s, time (e.beat n s) = time s

variable {time : σ → ℚ} {p p' : Pacer ℚ} {s s' : σ} {batches : List Nat}

/-- One interval before the deadline the pacer sleeps until the deadline. -/
theorem Still.awake (h : e.Still time) (hinterval : 0 < p.interval)
    (hdeadline : p.deadline = time s + p.interval) :
    ∃ s', Pacer.awake e p s = (p.deadline, s') ∧ time s' = p.deadline := by
  have hdelay : p.delay? (time s) = some p.interval := by
    have hsub : Seconds.sub p.deadline (time s) = p.interval := by
      show p.deadline - time s = p.interval
      rw [hdeadline, add_sub_cancel_left]
    have hpositive : Seconds.isPositive p.interval = true := decide_eq_true hinterval
    simp only [Pacer.delay?, hsub, hpositive, if_true]
  have hslept : time (e.sleep p.interval s) = p.deadline := by rw [h.sleep, hdeadline]
  refine ⟨e.sleep p.interval s, ?_, hslept⟩
  simp only [Pacer.awake, h.now, hdelay, hslept]

/-- The pacer is one interval ahead of the time before every batch. -/
theorem Still.ahead (h : e.Still time) (hinterval : 0 < p.interval)
    (hdeadline : p.deadline = time s + p.interval) (hands : Pacer.Hands e p s batches p' s') :
    0 < p'.interval ∧ p'.deadline = time s' + p'.interval := by
  induction hands with
  | nothing => exact ⟨hinterval, hdeadline⟩
  | @batch batches p' s' n earlier goes due ih =>
    obtain ⟨s'', hawake, htime⟩ := h.awake ih.1 ih.2
    -- the pacer wakes just at its deadline, so the batch is of one heartbeat
    rw [hawake, Pacer.due_deadline] at due
    obtain rfl := Except.ok.inj due
    refine ⟨ih.1, ?_⟩
    rw [hawake, h.beat, htime]
    show p'.deadline + ((1 : ℕ) : ℚ) * p'.interval = p'.deadline + p'.interval
    rw [Nat.cast_one, one_mul]

/-- In exact time that passes only in sleep, heartbeats are handed over one by one. -/
theorem Still.oneByOne (h : e.Still time) {interval : ℚ} (hinterval : 0 < interval) (s : σ) :
    Pacer.OneByOne e (.begin interval (time s)) s := by
  intro batches p' s' hands _
  obtain ⟨hpos, hdeadline⟩ := h.ahead (p := .begin interval (time s)) hinterval rfl hands
  obtain ⟨s'', hawake, -⟩ := h.awake hpos hdeadline
  rw [hawake, Pacer.due_deadline]

end Surroundings

end GridRobot
