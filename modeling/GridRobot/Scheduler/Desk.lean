import GridRobot.Scheduler.Basic

/-!
# Scheduler and worlds together

A desk is a scheduler with the worlds whose keys it is given. Here its steps are made, and here it
answers requests.

## Main definitions

* `Worlds` are worlds by their keys.
* `Desk` is a scheduler with worlds, and `Desk.makeStep` a step of the run it holds.
* `Request` is what a desk may be asked to do, and `Answer` what it says.
* `Desk.perform` carries out a request.

## Design notes

`Desk.react` is what a request does before any step is made. It ends with a demand: a step, a report
of a result, a reload of the world, or nothing. A desk whose listener makes requests of its own
meets the same demands at other moments, so it is built on the same reaction.
-/

namespace GridRobot

/-- Worlds by their keys. -/
abbrev Worlds (κ : Type) : Type :=
  List (κ × World)

namespace Worlds

variable {κ : Type} [DecidableEq κ]

/-- The world of a key. -/
def get? : Worlds κ → κ → Option World
  | [], _ => none
  | (k, w) :: rest, key => if k = key then some w else get? rest key

/-- The worlds with another one in place of that of a key. -/
def set : Worlds κ → κ → World → Worlds κ
  | [], _, _ => []
  | (k, w) :: rest, key, new => if k = key then (k, new) :: rest else (k, w) :: set rest key new

end Worlds

/-- A scheduler, and the worlds whose keys it is given. -/
structure Desk (κ : Type) where
  scheduler : Scheduler κ
  worlds : Worlds κ

/-- What a desk may be asked to do. -/
inductive Request (κ : Type) where
  /-- Animate a fresh run. -/
  | start (program : Option Program) (world : Option κ)
  /-- Make one step, of a fresh run if none waits for it. -/
  | step (program : Option Program) (world : Option κ)
  /-- Perform one action outside of a program. -/
  | action (action : Action) (world : Option κ)
  /-- Animate the run that waits. -/
  | resume
  /-- Give up the run, and have the world loaded again. -/
  | stop
  /-- Give up the run. -/
  | reset
  | heartbeat
  /-- Several heartbeats; none for a number below one. -/
  | tick (beats : Int)
  /-- Tell the period and the limits. -/
  | limits

/-- What a desk says to a request. -/
inductive Answer where
  | done
  | result (r : StepResult)
  | limits (period : Nat) (limits : Limits)
  | refused (reason : Refusal)
  deriving Repr, DecidableEq

/-- What remains to be done for a request. -/
inductive Demand where
  /-- Nothing; the request is answered. -/
  | answer (a : Answer)
  /-- A result is to be reported. -/
  | report (r : StepResult)
  /-- A step is to be made. -/
  | step
  /-- The world is to be loaded again. -/
  | reload
  /-- So many heartbeats are to be given one by one. -/
  | beats (n : Nat)

namespace Desk

variable {κ : Type}

/-- The desk with another scheduler, or the reason why there is none. -/
def adopt (d : Desk κ) (next : Demand) : Except Refusal (Scheduler κ) → Demand × Desk κ
  | .ok s => (next, { d with scheduler := s })
  | .error reason => (.answer (.refused reason), d)

/-- One heartbeat before any step is made. -/
def beat (d : Desk κ) : Demand × Desk κ :=
  let (s, due) := d.scheduler.beat
  (if due then .step else .answer .done, { d with scheduler := s })

variable [DecidableEq κ]

/-- The key of a world, if a world is there. -/
def present (d : Desk κ) (key : Option κ) : Option κ :=
  key.filter fun k => (d.worlds.get? k).isSome

/-- An action outside of a program, on the world of a key. -/
def act (d : Desk κ) (a : Action) (key : κ) : Demand × Desk κ :=
  match d.worlds.get? key with
  | none => (.answer (.refused .noWorld), d)
  | some w =>
    let (r, after) := w.act a none
    (.report r, { d with worlds := d.worlds.set key after })

/-- What a request does before any step is made, and what remains to be done for it. -/
def react (d : Desk κ) : Request κ → Demand × Desk κ
  | .start p w => d.adopt (.answer .done) (d.scheduler.start p (d.present w))
  | .step p w => d.adopt .step (d.scheduler.readyStep p (d.present w))
  | .resume => d.adopt (.answer .done) d.scheduler.resume
  | .action a w =>
    match d.scheduler.allowAction (d.present w) with
    | .error reason => (.answer (.refused reason), d)
    | .ok key => d.act a key
  | .stop => (.reload, { d with scheduler := d.scheduler.clear })
  | .reset => (.answer .done, { d with scheduler := d.scheduler.clear })
  | .heartbeat => d.beat
  | .tick n => (.beats n.toNat, d)
  | .limits => (.answer (.limits d.scheduler.period d.scheduler.limits), d)

/-- The run that a step is to be made of, with its world. -/
def toStep? (d : Desk κ) : Option (Held κ × World) := do
  let h ← d.scheduler.held
  let w ← d.worlds.get? h.world
  some (h, w)

/-- The desk after a step of a run that it held when the step began, and what the step came to.
The run is put back unless it has been given up or replaced in the meantime. -/
def endStep (d : Desk κ) (h : Held κ) (w : World) (stays : Bool) :
    Except Refusal StepResult × Desk κ :=
  let s := h.run.step d.scheduler.limits w
  let scheduler := { d.scheduler with
    stepping := false
    held := if stays then some { h with run := s.run } else d.scheduler.held }
  let worlds := d.worlds.set h.world s.world
  match s.result with
  | .error procedure => (.error (.missing procedure), ⟨scheduler, worlds⟩)
  | .ok r =>
    -- the end of a run cannot be noted once nobody holds it
    if r = .finished ∧ scheduler.held.isNone then (.error .runGivenUp, ⟨scheduler, worlds⟩)
    else (.ok r, ⟨scheduler.settle r, worlds⟩)

/-- A step of the run that the desk holds. -/
def makeStep (d : Desk κ) : Except Refusal StepResult × Desk κ :=
  match d.toStep? with
  | none => (.error .nothingSuspended, d)
  | some (h, w) => d.endStep h w true

/-- What a request came to: the answer, the desk after it, the results that were reported, and
whether the world is to be loaded again. -/
structure Outcome (κ : Type) where
  answer : Answer
  desk : Desk κ
  reported : List StepResult
  reload : Bool

/-- A step, as the outcome of a request. -/
def stepOutcome (d : Desk κ) : Outcome κ :=
  match d.makeStep with
  | (.ok r, after) => ⟨.result r, after, [r], false⟩
  | (.error reason, after) => ⟨.refused reason, after, [], false⟩

/-- One heartbeat, with the step that falls due. -/
def heartbeat (d : Desk κ) : Outcome κ :=
  match d.beat with
  | (.step, after) => after.stepOutcome
  | (_, after) => ⟨.done, after, [], false⟩

/-- So many heartbeats, as long as a run is animated and its steps can be made. -/
def tick (d : Desk κ) : Nat → Outcome κ
  | 0 => ⟨.done, d, [], false⟩
  | n + 1 =>
    if d.scheduler.phase ≠ .running then ⟨.done, d, [], false⟩
    else
      let first := d.heartbeat
      match first.answer with
      | .refused reason => { first with answer := .refused reason }
      | _ =>
        let rest := tick first.desk n
        { rest with reported := first.reported ++ rest.reported }

/-- Carries out a request. -/
def perform (d : Desk κ) (q : Request κ) : Outcome κ :=
  match d.react q with
  | (.answer a, after) => ⟨a, after, [], false⟩
  | (.report r, after) => ⟨.result r, after, [r], false⟩
  | (.step, after) => after.stepOutcome
  | (.reload, after) => ⟨.done, after, [], true⟩
  | (.beats n, after) => after.tick n

end Desk

end GridRobot
