/-!
# Clocks

A clock counts heartbeats and hands them on to its subscribers. It never looks at the time of day;
whoever drives it decides when a heartbeat happens, and may hand over several at once.

## Main definitions

* `Clock` is the state of a clock, `Clock.subscribe`, `Clock.unsubscribe`, `Clock.reset` and
  `Clock.tick` change it.
* `Hook` is a way in which a subscriber can be called, and `Hook.calls` the calls that a batch of
  heartbeats makes through it.
-/

namespace GridRobot

/-- How a subscriber can be called; of a subscriber with several hooks only the first one in this
order is used. -/
inductive Hook where
  /-- A call that takes the number of heartbeats. -/
  | batch
  /-- A call for one heartbeat of a subscriber that could have taken a number. -/
  | single
  /-- A call for one heartbeat. -/
  | heartbeat
  /-- A call that no clock can make. -/
  | misfit
  /-- No call at all. -/
  | none
  deriving Repr, DecidableEq

/-- One call of a subscriber. -/
inductive Call where
  | beats (n : Nat)
  | tick
  | heartbeat
  deriving Repr, DecidableEq

namespace Hook

/-- The calls that a batch of heartbeats makes. -/
def calls (n : Nat) : Hook → List Call
  | batch => [.beats n]
  | single => .replicate n .tick
  | heartbeat => .replicate n .heartbeat
  | misfit => .replicate n .tick
  | none => []

end Hook

/-- Number of heartbeats that a call hands over. -/
def Call.size : Call → Nat
  | beats n => n
  | tick => 1
  | heartbeat => 1

/-- State of a clock; its subscribers are in the order in which they came. -/
structure Clock (κ : Type) where
  /-- Milliseconds from one heartbeat to the next. -/
  interval : Nat
  beatCount : Nat
  subscribers : List κ
  deriving Repr, DecidableEq

namespace Clock

variable {κ : Type}

/-- Default for the milliseconds from one heartbeat to the next. -/
def defaultInterval : Int := 8

/-- What is said about an interval that is not positive. -/
def intervalMessage : String :=
  "Heartbeat interval must be positive"

/-- What is said about a negative number of heartbeats. -/
def beatsMessage : String :=
  "beats must be >= 0"

/-- A clock without subscribers, for an interval that must be positive. -/
def ofInterval? (milliseconds : Int) : Option (Clock κ) :=
  if milliseconds ≤ 0 then none else some ⟨milliseconds.toNat, 0, []⟩

/-- The clock with its count at zero. -/
def reset (c : Clock κ) : Clock κ :=
  { c with beatCount := 0 }

/-- The calls of a batch of heartbeats, in the order in which they are made. -/
def deliveries (c : Clock κ) (hook : κ → Hook) (n : Nat) : List (κ × Call) :=
  c.subscribers.flatMap fun k => ((hook k).calls n).map fun call => (k, call)

/-- A batch of heartbeats: the clock after it has counted them, and the calls it makes then. There
is no negative number of heartbeats. -/
def tick? (c : Clock κ) (hook : κ → Hook) (beats : Int) : Option (Clock κ × List (κ × Call)) :=
  if beats < 0 then none
  else if beats = 0 then some (c, [])
  else some ({ c with beatCount := c.beatCount + beats.toNat }, c.deliveries hook beats.toNat)

variable [DecidableEq κ]

/-- The clock with one more subscriber, unless it is one already. -/
def subscribe (c : Clock κ) (k : κ) : Clock κ :=
  if k ∈ c.subscribers then c else { c with subscribers := c.subscribers ++ [k] }

/-- The clock without a subscriber. -/
def unsubscribe (c : Clock κ) (k : κ) : Clock κ :=
  { c with subscribers := c.subscribers.erase k }

end Clock

end GridRobot
