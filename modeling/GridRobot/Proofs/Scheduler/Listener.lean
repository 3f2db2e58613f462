import GridRobot.Proofs.Scheduler.Desk
import GridRobot.Scheduler.Session

/-!
# What a listener hears

A session whose guests make no requests of their own is a desk with a record: every request does to
its desk what it does to a desk alone, and the listener hears what is reported, in that order.

## Main definitions

* `Guests.listener` are guests of which one listens and none makes a request.
* `Desk.through` is a desk after some requests, and `Desk.told` what they report.
* `Session.through` is a session after some requests.

## Main statements

* `Session.perform_keeps`: a request in such a session.
* `Session.through_listener`: a row of requests in such a session.
-/

namespace GridRobot

variable {κ : Type} [DecidableEq κ]

namespace Desk

/-- The desk after some requests. -/
def through (d : Desk κ) (qs : List (Request κ)) : Desk κ :=
  qs.foldl (fun d q => (d.perform q).desk) d

/-- The results that some requests report. -/
def told (d : Desk κ) : List (Request κ) → List StepResult
  | [] => []
  | q :: qs => (d.perform q).reported ++ told (d.perform q).desk qs

variable {d : Desk κ}

theorem through_cons (q : Request κ) (qs : List (Request κ)) :
    d.through (q :: qs) = (d.perform q).desk.through qs := rfl

theorem through_append (qs rs : List (Request κ)) :
    d.through (qs ++ rs) = (d.through qs).through rs := by
  simp only [through, List.foldl_append]

theorem told_append (qs rs : List (Request κ)) :
    d.told (qs ++ rs) = d.told qs ++ (d.through qs).told rs := by
  induction qs generalizing d with
  | nil => rfl
  | cons q qs ih => simp only [List.cons_append, told, ih, through_cons, List.append_assoc]

end Desk

/-- One listener, and nobody who makes requests. -/
def Guests.listener (reloads : Bool) : Guests κ :=
  ⟨[], [], true, reloads⟩

namespace Session

/-- The session after some requests. -/
def through (g : Guests κ) (s : Session κ) (qs : List (Request κ)) : Session κ :=
  qs.foldl (fun s q => (s.perform g q).2) s

variable (s : Session κ) (reloads : Bool)

/-- What was asked of a session came to the given outcome of its desk, and the listener heard it. -/
structure Keeps (o : Desk.Outcome κ) (said : Answer × Session κ) : Prop where
  answer : said.1 = o.answer
  desk : said.2.desk = o.desk
  seen : said.2.seen = s.seen ++ o.reported

theorem makeStep_listener : ∃ said, s.makeStep (.listener reloads) =
    (s.desk.makeStep.1, { s with desk := s.desk.makeStep.2, saidInStep := said }) := by
  unfold Session.makeStep Desk.makeStep
  cases hstep : s.desk.toStep? with
  | none => exact ⟨s.saidInStep, rfl⟩
  | some held =>
    obtain ⟨h, w⟩ := held
    have hworld := (Desk.toStep?_eq_some.1 hstep).2
    refine ⟨s.saidInStep ++ [[]], ?_⟩
    simp only [Guests.listener, guestsInStep, hworld]
    rfl

theorem stepWith_keeps :
    s.Keeps s.desk.stepOutcome (s.stepWith (.listener reloads) (hear (.listener reloads) 0)) := by
  obtain ⟨said, hmake⟩ := s.makeStep_listener reloads
  unfold stepWith Desk.stepOutcome
  rw [hmake]
  rcases s.desk.makeStep with ⟨_ | r, after⟩
  · exact ⟨rfl, rfl, (List.append_nil _).symm⟩
  · exact ⟨rfl, rfl, rfl⟩

theorem heartbeatWith_keeps :
    s.Keeps s.desk.heartbeat
      (s.heartbeatWith (.listener reloads) (hear (.listener reloads) 0)) := by
  unfold heartbeatWith Desk.heartbeat Desk.beat
  rcases s.desk.scheduler.beat with ⟨scheduler, _ | _⟩
  · exact ⟨rfl, rfl, (List.append_nil _).symm⟩
  · have hstep := stepWith_keeps { s with desk := { s.desk with scheduler := scheduler } } reloads
    exact ⟨hstep.answer, hstep.desk, hstep.seen⟩

theorem tickWith_keeps (n : Nat) :
    s.Keeps (s.desk.tick n)
      (s.tickWith (.listener reloads) (hear (.listener reloads) 0) n) := by
  induction n generalizing s with
  | zero => exact ⟨rfl, rfl, (List.append_nil _).symm⟩
  | succ n ih =>
    unfold tickWith Desk.tick
    by_cases hphase : s.desk.scheduler.phase = .running
    · simp only [hphase, ne_eq, not_true_eq_false, if_false]
      have hfirst := s.heartbeatWith_keeps reloads
      rcases hbeat : s.heartbeatWith (.listener reloads) (hear (.listener reloads) 0) with
        ⟨answer, after⟩
      rw [hbeat] at hfirst
      have hrest := ih after
      rw [hfirst.desk] at hrest
      have hanswer : s.desk.heartbeat.answer = answer := hfirst.answer.symm
      rw [hanswer]
      cases answer with
      | refused reason => exact ⟨rfl, hfirst.desk, hfirst.seen⟩
      | _ => exact ⟨hrest.answer, hrest.desk, by rw [hrest.seen, hfirst.seen, List.append_assoc]⟩
    · simp only [hphase, ne_eq, not_false_eq_true, if_true]
      exact ⟨rfl, rfl, (List.append_nil _).symm⟩

/-- A request in a session does to its desk what it does to a desk alone, and the listener hears what
is reported. -/
theorem perform_keeps (q : Request κ) :
    s.Keeps (s.desk.perform q) (s.perform (.listener reloads) q) := by
  show s.Keeps _ (s.performWith (.listener reloads) (hear (.listener reloads) 0) q)
  unfold performWith Desk.perform
  rcases s.desk.react q with ⟨demand, d⟩
  cases demand with
  | answer a => exact ⟨rfl, rfl, (List.append_nil _).symm⟩
  | report r => exact ⟨rfl, rfl, rfl⟩
  | step =>
    have hstep := stepWith_keeps { s with desk := d } reloads
    exact ⟨hstep.answer, hstep.desk, hstep.seen⟩
  | reload => exact ⟨rfl, rfl, (List.append_nil _).symm⟩
  | beats n =>
    have hbeats := tickWith_keeps { s with desk := d } reloads n
    exact ⟨hbeats.answer, hbeats.desk, hbeats.seen⟩

theorem through_listener (qs : List (Request κ)) :
    (s.through (.listener reloads) qs).desk = s.desk.through qs ∧
      (s.through (.listener reloads) qs).seen = s.seen ++ s.desk.told qs := by
  induction qs generalizing s with
  | nil => exact ⟨rfl, (List.append_nil _).symm⟩
  | cons q qs ih =>
    have hfirst := s.perform_keeps reloads q
    obtain ⟨hdesk, hseen⟩ := ih (s.perform (.listener reloads) q).2
    rw [hfirst.desk] at hdesk hseen
    rw [hfirst.seen, List.append_assoc] at hseen
    exact ⟨hdesk, hseen⟩

end Session

end GridRobot
