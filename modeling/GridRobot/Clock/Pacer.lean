import GridRobot.Breakdown
import GridRobot.Clock.Basic

/-!
# Keeping a clock in time

A pacer hands heartbeats to a clock on a schedule that is fixed once and for all: deadlines lie one
interval apart, whatever time the heartbeats take. Heartbeats that were missed are handed over in
one batch.

## Main definitions

* `Seconds` is the arithmetic of times.
* `Pacer` is the state of a pacer: its interval, its next deadline, and what it has handed over.
* `Surroundings` is what a pacer deals with: a watch, a way to sleep, and the clock.
* `Pacer.turn` is one batch, and `Pacer.run` many.
-/

namespace GridRobot

/-- Arithmetic of times in seconds. -/
class Seconds (τ : Type) where
  /-- A number of milliseconds, if it is not too great. -/
  ofMilliseconds : Int → Except Breakdown τ
  zero : τ
  add : τ → τ → τ
  sub : τ → τ → τ
  /-- So many times an interval. -/
  times : Nat → τ → τ
  isPositive : τ → Bool
  /-- How many whole intervals, the second number, lie in the first, if that can be counted; zero in
  a negative time. -/
  wholeIntervals : τ → τ → Except Breakdown Nat

/-- State of a pacer. -/
structure Pacer (τ : Type) where
  interval : τ
  deadline : τ
  /-- Heartbeats that have been handed over. -/
  fired : Nat

/-- What a pacer deals with. -/
structure Surroundings (τ σ : Type) where
  /-- Are there to be further heartbeats? -/
  goesOn : σ → Bool
  /-- A look at the watch. -/
  now : σ → τ × σ
  sleep : τ → σ → σ
  /-- Hands over a batch of heartbeats. -/
  beat : Nat → σ → σ

namespace Pacer

variable {τ σ : Type} [Seconds τ]

/-- A pacer that begins at a time. -/
def begin (interval start : τ) : Pacer τ :=
  ⟨interval, Seconds.add start interval, 0⟩

/-- Time left until the next deadline, if there is any. -/
def delay? (p : Pacer τ) (now : τ) : Option τ :=
  let delay := Seconds.sub p.deadline now
  if Seconds.isPositive delay then some delay else none

/-- Number of heartbeats that are due at a time not before the deadline. -/
def due (p : Pacer τ) (now : τ) : Except Breakdown Nat := do
  .ok (1 + (← Seconds.wholeIntervals (Seconds.sub now p.deadline) p.interval))

/-- The pacer after it has handed over some heartbeats. -/
def advance (p : Pacer τ) (beats : Nat) : Pacer τ :=
  { p with
    deadline := Seconds.add p.deadline (Seconds.times beats p.interval)
    fired := p.fired + beats }

/-- One batch: sleeps until the deadline, and hands over the heartbeats that are due by then. -/
def turn (e : Surroundings τ σ) (p : Pacer τ) (s : σ) : Except Breakdown (Pacer τ × σ) := do
  let (before, s) := e.now s
  let s := match p.delay? before with
    | some delay => e.sleep delay s
    | none => s
  let (after, s) := e.now s
  let beats ← p.due after
  .ok (p.advance beats, e.beat beats s)

/-- Batch after batch, as long as there are to be further heartbeats, and at most so many. -/
def run (e : Surroundings τ σ) : Nat → Pacer τ → σ → Except Breakdown (Pacer τ × σ)
  | 0, p, s => .ok (p, s)
  | n + 1, p, s =>
    if e.goesOn s then do
      let (p, s) ← turn e p s
      run e n p s
    else .ok (p, s)

/-- Keeps a clock of an interval in time, from now on, for at most so many batches. -/
def keep (e : Surroundings τ σ) (milliseconds : Nat) (batches : Nat) (s : σ) :
    Except Breakdown (Pacer τ × σ) := do
  let interval ← Seconds.ofMilliseconds milliseconds
  let (start, s) := e.now s
  run e batches (begin interval start) s

end Pacer

end GridRobot
