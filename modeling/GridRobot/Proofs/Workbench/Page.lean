import GridRobot.Console
import GridRobot.Proofs.Workbench.History

/-!
# Pages of notices

What is told about a workbench is written down notice after notice, and nothing that is done there
looks at what was written before. So a page may be turned at any time, as a console does before each
request, and the workbench is the same but for its notices.

## Main definitions

* `Workbench.refiled` is a workbench with other notices before its own and other worlds on their
  way, and `Workbench.behind` one with an earlier page of notices.
* `Workbench.told` is what an event tells.
* `ConsoleEvent` is what can happen at a console, `Console.happen` what comes of it, and
  `Console.through` what comes of a history.

## Main statements

* `Workbench.happen_behind`: earlier notices make no difference to an event.
* `Console.through_bench`: the workbench of a console has a history as it has without one.
-/

namespace GridRobot

namespace Workbench

/-- The workbench with an earlier page before its notices, and with other arrivals on their way. -/
def refiled (page : List Notice) (g : List Arrival → List Arrival) (b : Workbench) : Workbench :=
  { b with notices := page ++ b.notices, arrivals := g b.arrivals }

section Refiled

variable (page : List Notice) (g : List Arrival → List Arrival) (b : Workbench)

@[simp] theorem refiled_desk : (b.refiled page g).desk = b.desk := rfl

@[simp] theorem refiled_shown : (b.refiled page g).shown = b.shown := rfl

@[simp] theorem refiled_loading : (b.refiled page g).loading = b.loading := rfl

@[simp] theorem refiled_model? : (b.refiled page g).model? = b.model? := rfl

theorem tell_refiled (n : Notice) : (b.refiled page g).tell n = (b.tell n).refiled page g := by
  simp [refiled, tell]

theorem draw_refiled : (b.refiled page g).draw = b.draw.refiled page g := by
  unfold draw
  rw [refiled_model?]
  cases b.model? with
  | none => rfl
  | some d => exact tell_refiled page g b _

theorem hear_refiled (r : StepResult) : (b.refiled page g).hear r = (b.hear r).refiled page g := by
  unfold hear
  simp only
  rw [show ({ b.refiled page g with
      steps := if r = StepResult.continued then (b.refiled page g).steps + 1
        else (b.refiled page g).steps } : Workbench) =
    ({ b with steps := if r = StepResult.continued then b.steps + 1 else b.steps }).refiled page g
    from rfl, draw_refiled]
  cases r with
  | continued => rfl
  | finished => exact tell_refiled page g _ _
  | fault f => exact tell_refiled page g _ _

theorem accept_refiled (o : Desk.Outcome Nat) :
    (b.refiled page g).accept o = ((b.accept o).1, (b.accept o).2.refiled page g) := by
  unfold accept
  cases o.answer with
  | result r => exact Prod.ext rfl (hear_refiled page g { b with desk := o.desk } r)
  | refused reason => exact Prod.ext rfl (tell_refiled page g { b with desk := o.desk } _)
  | done => rfl
  | limits period limits => rfl

theorem ask_refiled (q : Request Nat) :
    (b.refiled page g).ask q = ((b.ask q).1, (b.ask q).2.refiled page g) :=
  accept_refiled page g b _

theorem compile_refiled :
    (b.refiled page g).compile = (b.compile.1, b.compile.2.refiled page g) := by
  unfold compile
  simp only [show (b.refiled page g).config = b.config from rfl,
    show (b.refiled page g).source = b.source from rfl]
  split
  · rfl
  · simp [refiled, tell]
  · rfl

theorem deliver_refiled (a : Arrival) :
    (b.refiled page g).deliver a = (b.deliver a).refiled page g := by
  unfold deliver
  cases a.outcome with
  | error e => exact tell_refiled page g b _
  | ok d =>
    by_cases hname : a.name = b.worldName
    · simp only [show (b.refiled page g).worldName = b.worldName from rfl, hname, ne_eq,
        not_true, if_false]
      cases World.ofDescription d with
      | error e => rfl
      | ok w =>
        unfold install
        simp only
        rw [← tell_refiled, ← draw_refiled]
        rfl
    · simp only [show (b.refiled page g).worldName = b.worldName from rfl, hname, ne_eq,
        not_false_eq_true, if_true]

/-- A world that is asked for joins the others on their way. -/
theorem load_refiled [Yaml.Reader] (hg : ∀ a, g (b.arrivals ++ [a]) = g b.arrivals ++ [a])
    (files : Files) :
    (b.refiled page g).load files = ((b.load files).1, (b.load files).2.refiled page g) := by
  unfold load
  simp only [show (b.refiled page g).library = b.library from rfl,
    show (b.refiled page g).worldName = b.worldName from rfl, refiled_loading]
  split
  · rfl
  · rfl
  · rename_i a _ _
    exact Prod.ext rfl (by simp [refiled, hg a])
  · exact Prod.ext rfl (deliver_refiled page g { b with shown := none } _)

theorem play_refiled :
    (b.refiled page g).play = (b.play.1, b.play.2.refiled page g) := by
  unfold play
  rw [compile_refiled]
  obtain ⟨r, compiled⟩ := b.compile
  rcases r with i | e | p
  · rfl
  · rfl
  · simp only [refiled_desk, refiled_shown, accept_refiled]
    split <;> rfl

theorem singleStep_refiled :
    (b.refiled page g).singleStep = (b.singleStep.1, b.singleStep.2.refiled page g) := by
  unfold singleStep
  simp only [refiled_desk, refiled_shown, compile_refiled, ask_refiled]
  split
  · rfl
  · obtain ⟨r, compiled⟩ := b.compile
    rcases r with i | e | p
    · rfl
    · rfl
    · have hask := ask_refiled page g { compiled with steps := 0 } (.step (some p) compiled.shown)
      exact congrArg (fun said : Option StepResult × Workbench =>
        ((.ok said.1, said.2) : Except Breakdown (Option StepResult) × Workbench)) hask

theorem heartbeat_refiled : (b.refiled page g).heartbeat = b.heartbeat.refiled page g := by
  unfold heartbeat
  rw [ask_refiled]
  obtain ⟨r, after⟩ := b.ask .heartbeat
  simp only [show (after.refiled page g).refresh = after.refresh from rfl]
  split
  · rfl
  · cases r with
    | none => exact draw_refiled page g { after with refresh := after.refreshPeriod }
    | some r => rfl

/-- Neither what was told before nor what is on its way makes a difference to an event that delivers
nothing. -/
theorem happen_refiled [Yaml.Reader] (hg : ∀ a, g (b.arrivals ++ [a]) = g b.arrivals ++ [a])
    {e : Event} (he : ∀ i, e ≠ .deliver i) :
    (b.refiled page g).happen e = (b.happen e).refiled page g := by
  cases e with
  | edit source => rfl
  | play => exact congrArg Prod.snd (play_refiled page g b)
  | stop files =>
    have harrivals : (b.ask .stop).2.arrivals = b.arrivals := by
      obtain ⟨ns, n, hask⟩ := accept_eq b (b.desk.perform .stop)
      rw [ask, hask]
    simp only [happen, stop, ask_refiled]
    rw [load_refiled page g _ (by rwa [harrivals])]
  | resume => exact congrArg Prod.snd (ask_refiled page g b .resume)
  | singleStep => exact congrArg Prod.snd (singleStep_refiled page g b)
  | changeWorld files name =>
    have harrivals : (b.ask .reset).2.arrivals = b.arrivals := by
      obtain ⟨ns, n, hask⟩ := accept_eq b (b.desk.perform .reset)
      rw [ask, hask]
    simp only [happen, changeWorld, ask_refiled]
    exact congrArg Prod.snd
      (load_refiled page g { (b.ask .reset).2 with worldName := name } (by simpa [harrivals]) files)
  | manual a => exact congrArg Prod.snd (ask_refiled page g b _)
  | heartbeat => exact heartbeat_refiled page g b
  | deliver i => exact absurd rfl (he i)

end Refiled

/-! ### Pages -/

/-- The workbench with an earlier page before its notices. -/
def behind (page : List Notice) (b : Workbench) : Workbench :=
  b.refiled page id

variable (page : List Notice) (b : Workbench)

@[simp] theorem behind_newPage : b.newPage.behind b.notices = b := by
  simp [behind, refiled, newPage]

variable [Yaml.Reader]

/-- What was told before makes no difference to what an event does and tells. -/
theorem happen_behind (e : Event) : (b.behind page).happen e = (b.happen e).behind page := by
  by_cases he : ∃ i, e = .deliver i
  · obtain ⟨i, rfl⟩ := he
    -- a delivery takes an arrival away, and nothing was done to those
    show (b.behind page).deliverAt i = (b.deliverAt i).behind page
    unfold deliverAt
    simp only [show (b.behind page).arrivals = b.arrivals from rfl]
    split
    · rfl
    · exact deliver_refiled page id { b with arrivals := b.arrivals.eraseIdx i.toNat } _
  · exact happen_refiled page id b (fun _ => rfl) (fun i hi => he ⟨i, hi⟩)

theorem through_behind (events : List Event) :
    (b.behind page).through events = (b.through events).behind page := by
  induction events generalizing b with
  | nil => rfl
  | cons e events ih => rw [through_cons, through_cons, happen_behind, ih]

/-- What an event tells. -/
def told (e : Event) : List Notice :=
  (b.newPage.happen e).notices

/-- An event adds what it tells to the notices that were there. -/
theorem happen_notices (e : Event) : (b.happen e).notices = b.notices ++ b.told e := by
  have h := congrArg notices (happen_behind b.notices b.newPage e)
  rwa [behind_newPage] at h

theorem told_eq {b : Workbench} {e : Event} {ns : List Notice}
    (h : (b.happen e).notices = b.notices ++ ns) : b.told e = ns := by
  rw [happen_notices] at h
  exact List.append_cancel_left h

theorem through_append (events later : List Event) :
    b.through (events ++ later) = (b.through events).through later := by
  simp only [through, List.foldl_append]

theorem through_newPage (events : List Event) :
    (b.newPage.through events).newPage = (b.through events).newPage := by
  conv => rhs; rw [← b.behind_newPage, through_behind]
  rfl

/-- On a fresh page, what is told of the first event comes first. -/
theorem page_cons (e : Event) (events : List Event) :
    (b.newPage.through (e :: events)).notices =
      b.told e ++ ((b.happen e).newPage.through events).notices := by
  have hpage : (b.newPage.happen e).newPage = (b.happen e).newPage := through_newPage b [e]
  rw [through_cons, ← hpage, ← behind_newPage (b.newPage.happen e), through_behind]
  rfl

/-- The notices after a history are those that were there before it and those that its events
told. -/
theorem mem_through_notices {n : Notice} {events : List Event} :
    n ∈ (b.through events).notices ↔
      n ∈ b.notices ∨ ∃ past e, past ++ [e] <+: events ∧ n ∈ (b.through past).told e := by
  induction events generalizing b with
  | nil => simp
  | cons first events ih =>
    rw [through_cons, ih, happen_notices, List.mem_append, or_assoc]
    refine or_congr_right ⟨?_, ?_⟩
    · rintro (htold | ⟨past, e, hpast, htold⟩)
      · exact ⟨[], first, by simp, htold⟩
      · exact ⟨first :: past, e, List.cons_prefix_cons.2 ⟨rfl, hpast⟩, htold⟩
    · rintro ⟨_ | ⟨first', past⟩, e, hpast, htold⟩
      · obtain ⟨rfl, -⟩ := List.cons_prefix_cons.1 hpast
        exact .inl htold
      · obtain ⟨rfl, hrest⟩ := List.cons_prefix_cons.1 hpast
        exact .inr ⟨past, e, hrest, htold⟩

theorem tick_eq_through (n : Nat) : b.tick n = b.through (.replicate n .heartbeat) := by
  induction n generalizing b with
  | zero => rfl
  | succ n ih => exact ih b.heartbeat

end Workbench

/-! ### Consoles -/

/-- What can happen at a console; a request for a world comes with the files as they are then. -/
inductive ConsoleEvent where
  | edit (source : String)
  | play
  | stop (files : Files)
  | resume
  | singleStep
  | changeWorld (files : Files) (name : LooseText)
  | manual (name : String)
  | tick (beats : Nat)
  | deliver (i : Int)

/-- What happens at the workbench when something happens at its console. -/
def ConsoleEvent.events : ConsoleEvent → List Event
  | .edit source => [.edit source]
  | .play => [.play]
  | .stop files => [.stop files]
  | .resume => [.resume]
  | .singleStep => [.singleStep]
  | .changeWorld files name => [.changeWorld files name]
  | .manual name => ((Action.ofName? name).map Event.manual).toList
  | .tick beats => .replicate beats .heartbeat
  | .deliver i => [.deliver i]

namespace Console

variable [Yaml.Reader]

/-- A console after an event; there is no action of an unknown name. -/
def happen (c : Console) : ConsoleEvent → Console
  | .edit source => c.setSource source
  | .play => c.play.2
  | .stop files => (c.stop files).2
  | .resume => c.resume
  | .singleStep => c.singleStep.2
  | .changeWorld files name => (c.changeWorld files name).2
  | .manual name => (c.manual? name).getD c
  | .tick beats => c.tick beats
  | .deliver i => c.deliverAt i

/-- A console after some events in turn. -/
def through (c : Console) (events : List ConsoleEvent) : Console :=
  events.foldl happen c

theorem happen_bench (c : Console) (e : ConsoleEvent) :
    (c.happen e).bench.newPage = (c.bench.through e.events).newPage := by
  rw [← Workbench.through_newPage]
  cases e with
  | play =>
    show (c.play.2).bench.newPage = (c.bench.newPage.play.2).newPage
    unfold play
    obtain ⟨r, b⟩ := c.bench.newPage.play
    cases r with
    | error i => rfl
    | ok outcome => cases hruns : outcome.toBool && b.animating <;> simp [hruns, follow]
  | stop files =>
    show ((c.stop files).2).bench.newPage = (c.bench.newPage.stop files).2.newPage
    unfold stop
    obtain ⟨r, b⟩ := c.bench.newPage.stop files
    cases r <;> rfl
  | manual name =>
    simp only [happen, manual?, ConsoleEvent.events]
    cases Action.ofName? name <;> rfl
  | tick beats => exact congrArg Workbench.newPage (Workbench.tick_eq_through _ beats)
  | _ => rfl

/-- The workbench of a console has a history as it has without one, but for turning the pages. -/
theorem through_bench (c : Console) (events : List ConsoleEvent) :
    (c.through events).bench.newPage =
      (c.bench.through (events.flatMap ConsoleEvent.events)).newPage := by
  induction events generalizing c with
  | nil => rfl
  | cons e events ih =>
    show ((c.happen e).through events).bench.newPage = _
    rw [ih, ← Workbench.through_newPage, happen_bench, Workbench.through_newPage,
      List.flatMap_cons, Workbench.through_append]

end Console

end GridRobot
