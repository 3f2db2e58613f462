import GridRobot.Scheduler.Desk

/-!
# Sessions with requests inside of requests

A listener that hears the result of a step may itself make requests, and so may whoever makes the
step, before it is made. A session carries out requests with such guests.

## Main definitions

* `Guests` are the requests that are made inside of others.
* `Session` is a desk with the record of what was reported.
* `Session.perform` carries out one request, together with those it gives rise to.

## Design notes

The guests of a listener are made when it is called for the `n`-th time, counted over the whole
session, and each of them once. So requests are nested no deeper than there are guests, and that
number bounds the recursion. No step can be made inside of a step, so the guests of a step need no
recursion at all.
-/

namespace GridRobot

/-- Requests that are made inside of others. -/
structure Guests (κ : Type) where
  /-- Made in every step, before the step itself. -/
  inStep : List (Request κ)
  /-- Made when the listener is called for the given time, counted from one. -/
  inListener : List (Nat × List (Request κ))
  /-- Is anybody listening? -/
  listens : Bool
  /-- Is anybody asked to load the world again? -/
  reloads : Bool

/-- A desk, and the record of a session at it. -/
structure Session (κ : Type) where
  desk : Desk κ
  /-- How often the listener has been called. -/
  calls : Nat
  /-- How often the world was to be loaded again. -/
  reloadCount : Nat
  /-- What the listener heard. -/
  seen : List StepResult
  /-- What was said to the guests of each step. -/
  saidInStep : List (List Answer)
  /-- What was said to the guests of the listener, in the order in which they had finished. -/
  saidInListener : List (List Answer)

namespace Session

variable {κ : Type}

/-- A session at its beginning. -/
def opened (d : Desk κ) : Session κ :=
  ⟨d, 0, 0, [], [], []⟩

/-- The session with an empty record, and all counts kept. -/
def newPage (s : Session κ) : Session κ :=
  { s with seen := [], saidInStep := [], saidInListener := [] }

/-- One more reload, if anybody is asked for it. -/
def reload (g : Guests κ) (s : Session κ) : Session κ :=
  { s with reloadCount := if g.reloads then s.reloadCount + 1 else s.reloadCount }

variable [DecidableEq κ]

/-- Does a request that was answered so take the run away from a step that is being made? -/
def takesRun : Request κ → Answer → Bool
  | .start _ _, .done => true
  | .stop, _ => true
  | .reset, _ => true
  | _, _ => false

/-- A request that is made while a step is being made, so that no other step can be made. -/
def performInStep (g : Guests κ) (s : Session κ) (q : Request κ) : Answer × Session κ :=
  match s.desk.react q with
  | (.answer a, d) => (a, { s with desk := d })
  | (.reload, d) => (.done, { s with desk := d }.reload g)
  | (_, d) => (.done, { s with desk := d })

/-- The guests of a step: what is said to them, whether the run stays with the scheduler, and the
session after them. -/
def guestsInStep (g : Guests κ) (s : Session κ) : List (Request κ) → List Answer × Bool × Session κ
  | [] => ([], true, s)
  | q :: rest =>
    let (a, after) := performInStep g s q
    let (answers, stays, last) := guestsInStep g after rest
    (a :: answers, stays && !takesRun q a, last)

/-- A step of the run that the scheduler holds, with the guests of the step. -/
def makeStep (g : Guests κ) (s : Session κ) : Except Refusal StepResult × Session κ :=
  match s.desk.toStep? with
  | none => (.error .nothingSuspended, s)
  | some (h, _) =>
    let begun := { s with
      desk := { s.desk with scheduler := { s.desk.scheduler with stepping := true } } }
    let (answers, stays, after) := guestsInStep g begun g.inStep
    -- the run is the one that was held when the step began, whatever the guests did
    match after.desk.worlds.get? h.world with
    | none => (.error .nothingSuspended, after)
    | some w =>
      let (r, d) := after.desk.endStep h w stays
      (r, { after with desk := d, saidInStep := after.saidInStep ++ [answers] })

/-- What a listener does when it hears a result. -/
abbrev Hearing (κ : Type) : Type :=
  StepResult → Session κ → Session κ

/-- A step, the result of which is reported. -/
def stepWith (g : Guests κ) (hear : Hearing κ) (s : Session κ) : Answer × Session κ :=
  match s.makeStep g with
  | (.ok r, after) => (.result r, hear r after)
  | (.error reason, after) => (.refused reason, after)

/-- One heartbeat, with the step that falls due. -/
def heartbeatWith (g : Guests κ) (hear : Hearing κ) (s : Session κ) : Answer × Session κ :=
  match s.desk.beat with
  | (.step, d) => { s with desk := d }.stepWith g hear
  | (_, d) => (.done, { s with desk := d })

/-- So many heartbeats, as long as a run is animated and its steps can be made. -/
def tickWith (g : Guests κ) (hear : Hearing κ) (s : Session κ) : Nat → Answer × Session κ
  | 0 => (.done, s)
  | n + 1 =>
    if s.desk.scheduler.phase ≠ .running then (.done, s)
    else match s.heartbeatWith g hear with
      | (.refused reason, after) => (.refused reason, after)
      | (_, after) => tickWith g hear after n

/-- A request, the results of which are reported. -/
def performWith (g : Guests κ) (hear : Hearing κ) (s : Session κ) (q : Request κ) :
    Answer × Session κ :=
  match s.desk.react q with
  | (.answer a, d) => (a, { s with desk := d })
  | (.report r, d) => (.result r, hear r { s with desk := d })
  | (.step, d) => { s with desk := d }.stepWith g hear
  | (.reload, d) => (.done, { s with desk := d }.reload g)
  | (.beats n, d) => { s with desk := d }.tickWith g hear n

/-- Several requests, one after the other, with what is said to them. -/
def performAllWith (g : Guests κ) (hear : Hearing κ) (s : Session κ) :
    List (Request κ) → List Answer × Session κ
  | [] => ([], s)
  | q :: rest =>
    let (a, after) := s.performWith g hear q
    let (answers, last) := performAllWith g hear after rest
    (a :: answers, last)

/-- The listener hears a result, and notes it. -/
def note (g : Guests κ) (r : StepResult) (s : Session κ) : Session κ :=
  if g.listens then { s with calls := s.calls + 1, seen := s.seen ++ [r] } else s

/-- The listener hears a result, notes it and makes the requests that it makes at this time, which
may be nested so deep. -/
def hear (g : Guests κ) : Nat → Hearing κ
  | 0, r, s => s.note g r
  | depth + 1, r, s =>
    let noted := s.note g r
    if !g.listens then noted
    else (g.inListener.filter fun guest => guest.1 = noted.calls).foldl (fun s guest =>
      let (answers, after) := s.performAllWith g (hear g depth) guest.2
      { after with saidInListener := after.saidInListener ++ [answers] }) noted

/-- Carries out a request, together with those it gives rise to. -/
def perform (g : Guests κ) (s : Session κ) (q : Request κ) : Answer × Session κ :=
  s.performWith g (hear g g.inListener.length) q

end Session

end GridRobot
