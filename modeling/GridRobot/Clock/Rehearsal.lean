import GridRobot.Clock.Pacer

/-!
# Rehearsals

A rehearsal is a pacer at work in a time of its own. Time passes only while the pacer sleeps, and
then a little longer than it wanted, and while a heartbeat is being dealt with.

## Main definitions

* `Rehearsal` is the state of a rehearsal, with its record.
* `Rehearsal.play` is a rehearsal from its beginning to its end.
-/

namespace GridRobot

/-- State of a rehearsal. -/
structure Rehearsal (τ : Type) where
  time : τ
  clock : Clock Unit
  /-- How much too long the next sleeps will be; those after them are exact. -/
  oversleeps : List τ
  /-- How long the next batches will be dealt with; those after them take no time. -/
  stalls : List τ
  /-- How long the pacer wanted to sleep. -/
  slept : List τ
  /-- The batches, each with what the clock had counted by then. -/
  batches : List (Nat × Nat)

namespace Rehearsal

variable {τ : Type} [Seconds τ]

/-- The sum of two times. -/
def later (a b : τ) : τ :=
  Seconds.add a b

/-- A sleep, which may be too long. -/
def sleep (delay : τ) (r : Rehearsal τ) : Rehearsal τ :=
  let extra := r.oversleeps.headD Seconds.zero
  { r with
    time := later r.time (later delay extra)
    oversleeps := r.oversleeps.drop 1
    slept := r.slept ++ [delay] }

/-- A batch of heartbeats, which may take time. -/
def beat (n : Nat) (r : Rehearsal τ) : Rehearsal τ :=
  match r.clock.tick? (fun _ => Hook.batch) n with
  | none => r
  | some (clock, _) =>
    { r with
      clock := clock
      time := match r.stalls with
        | [] => r.time
        | stall :: _ => later r.time stall
      stalls := r.stalls.drop 1
      batches := r.batches ++ [(n, clock.beatCount)] }

/-- Bound of the number of batches. -/
def mostBatches : Nat := 500

/-- What a pacer deals with in a rehearsal that lasts for a number of heartbeats. -/
def surroundings (goal : Int) : Surroundings τ (Rehearsal τ) where
  goesOn r := r.clock.beatCount < goal && r.batches.length < mostBatches
  now r := (r.time, r)
  sleep := sleep
  beat := beat

/-- A rehearsal of a clock for a number of heartbeats, all times in milliseconds: how many
heartbeats the pacer handed over, and the state at the end. -/
def play (clock : Clock Unit) (goal start : Int) (oversleeps stalls : List Int) :
    Except Breakdown (Nat × Rehearsal τ) := do
  let first : Rehearsal τ := {
    time := ← Seconds.ofMilliseconds start
    clock := clock.subscribe ()
    oversleeps := ← oversleeps.mapM Seconds.ofMilliseconds
    stalls := ← stalls.mapM Seconds.ofMilliseconds
    slept := []
    batches := [] }
  let (pacer, last) ← Pacer.keep (surroundings goal) clock.interval mostBatches first
  .ok (pacer.fired, last)

end Rehearsal

end GridRobot
