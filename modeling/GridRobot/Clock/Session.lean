import GridRobot.Clock.Basic

/-!
# Clocks whose subscribers act on the clock

A subscriber that is called may take somebody off the clock, put somebody on it, or fail. The calls
of a batch are settled when the batch begins, so such changes show in the next batch only. A failure
ends the batch.

## Main definitions

* `Subscriber` is what a subscriber does when it is called.
* `Clock.batch` is a batch of heartbeats with everything that it gives rise to.
-/

namespace GridRobot

/-- What a subscriber does when it is called. -/
structure Subscriber (κ : Type) where
  hook : Hook
  /-- Is taken off the clock first. -/
  removes : Option κ
  /-- Is then put on the clock. -/
  adds : Option κ
  /-- Does it fail in the end? -/
  fails : Bool

namespace Subscriber

/-- A subscriber that cannot be called. -/
def deaf {κ : Type} : Subscriber κ :=
  ⟨.none, none, none, false⟩

end Subscriber

/-- How a batch of heartbeats fails. -/
inductive BatchFailure (κ : Type) where
  /-- There is no negative number of heartbeats. -/
  | negative
  /-- A subscriber could not be called. -/
  | misfit (subscriber : κ)
  /-- A subscriber was called and failed. -/
  | failed (subscriber : κ)
  deriving Repr, DecidableEq

/-- A call that was made. -/
structure Made (κ : Type) where
  subscriber : κ
  call : Call
  /-- What the clock had counted at that time. -/
  beatCount : Nat
  deriving Repr, DecidableEq

namespace Clock

variable {κ : Type} [DecidableEq κ]

/-- What a subscriber does to the clock when it is called. -/
def actedOn (c : Clock κ) (s : Subscriber κ) : Clock κ :=
  let without := match s.removes with
    | none => c
    | some k => c.unsubscribe k
  match s.adds with
  | none => without
  | some k => without.subscribe k

/-- Makes some calls: how they failed, the clock after them, and the calls that were made. -/
def make (who : κ → Subscriber κ) (c : Clock κ) :
    List (κ × Call) → Option (BatchFailure κ) × Clock κ × List (Made κ)
  | [] => (none, c, [])
  | (k, call) :: rest =>
    let s := who k
    if s.hook = .misfit then (some (.misfit k), c, [])
    else
      let after := c.actedOn s
      let made : Made κ := ⟨k, call, c.beatCount⟩
      if s.fails then (some (.failed k), after, [made])
      else
        let (failure, last, more) := make who after rest
        (failure, last, made :: more)

/-- A batch of heartbeats: how it failed, the clock after it, and the calls that were made. -/
def batch (who : κ → Subscriber κ) (c : Clock κ) (beats : Int) :
    Option (BatchFailure κ) × Clock κ × List (Made κ) :=
  match c.tick? (fun k => (who k).hook) beats with
  | none => (some .negative, c, [])
  | some (counted, calls) => counted.make who calls

end Clock

end GridRobot
