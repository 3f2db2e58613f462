import GridRobot.Proofs.Workbench.Tally

/-!
# The number of steps that is told

The number that is told at the end of a run is that of the run's own actions together with those
that were performed by hand while the run was waiting for its next step. A console shows it until
something else gives rise to a message.

## Main statements

* `Console.message_finished`: a console shows the number that its workbench tells.
* `Workbench.finished_count`: the number that is told at the end of a run.
-/

namespace GridRobot

/-! ### The message of a console -/

namespace Workbench

variable {b : Workbench} {t : Tally}

theorem picture_silent : ∀ n ∈ b.picture, n.message? = none := by
  unfold picture
  cases b.model? <;> simp [Notice.message?]

variable [Yaml.Reader]

/-- While no run is held, a heartbeat gives rise to no message. -/
theorem heartbeat_silent (hb : b.desk.Steady) (hheld : b.desk.scheduler.held = none) :
    b.heartbeat.desk = b.desk ∧ ∀ n ∈ b.told .heartbeat, n.message? = none := by
  have hphase : b.desk.scheduler.phase ≠ .running := by
    intro hrunning
    simpa [hheld] using hb.animated hrunning
  have hbeat : b.desk.scheduler.beat = (b.desk.scheduler, false) := by simp [Scheduler.beat, hphase]
  have hhears : Hears b b (b.desk.perform .heartbeat) b.heartbeat := heartbeat_hears b
  rw [Desk.perform_heartbeat, hbeat] at hhears
  refine ⟨hhears.desk, ?_⟩
  obtain ⟨more, hnotices, hmore⟩ := hhears.notices
  rw [told_eq (e := .heartbeat) hnotices]
  intro n hn
  rcases hmore with rfl | ⟨rfl, -⟩
  · cases hn
  · exact picture_silent n hn

theorem heartbeats_silent (hb : b.desk.Steady) (hheld : b.desk.scheduler.held = none) (k : Nat) :
    ∀ n ∈ (b.newPage.through (.replicate k .heartbeat)).notices, n.message? = none := by
  induction k generalizing b with
  | zero => exact List.forall_mem_nil _
  | succ k ih =>
    obtain ⟨hdesk, hsilent⟩ := heartbeat_silent hb hheld
    intro n hn
    rw [List.replicate_succ, page_cons, List.mem_append] at hn
    rcases hn with hn | hn
    · exact hsilent n hn
    · exact ih (b := b.heartbeat) (hdesk ▸ hb) (hdesk ▸ hheld) n hn

/-- In a row of heartbeats the end of a run is the last that gives rise to a message. -/
theorem heartbeats_finished (hb : Counted t b) {k n : Nat}
    (hn : .finished n ∈ (b.newPage.through (.replicate k .heartbeat)).notices) :
    ∃ before after, (b.newPage.through (.replicate k .heartbeat)).notices =
      before ++ .finished n :: after ∧ ∀ x ∈ after, x.message? = none := by
  induction k generalizing b t with
  | zero => cases hn
  | succ k ih =>
    have hfirst := happen_reckoned hb .heartbeat
    rw [List.replicate_succ, page_cons] at hn ⊢
    rcases List.mem_append.1 hn with hn | hn
    · obtain ⟨before, htold⟩ := hfirst.last n hn
      have hfree := hfirst.free ((hfirst.told n).1 hn).1
      refine ⟨before, _, ?_, heartbeats_silent hfirst.counted.steady hfree k⟩
      rw [htold, List.append_assoc, List.singleton_append]
    · obtain ⟨before, after, hnotices, hsilent⟩ := ih hfirst.counted hn
      exact ⟨b.told .heartbeat ++ before, after, by rw [hnotices, List.append_assoc], hsilent⟩

end Workbench

namespace Console

variable {c : Console} {t : Tally}

theorem lastMessage_finished {before after : List Notice} {m : LooseText} {n : Nat}
    (hafter : ∀ x ∈ after, x.message? = none) :
    lastMessage m (before ++ .finished n :: after) =
      "Finished in " ++ toString n ++ " step(s)" := by
  have hsilent : after.filterMap Notice.message? = [] := List.filterMap_eq_nil_iff.2 hafter
  simp [lastMessage, hsilent, Notice.message?]

/-- The end of a run on the page of an event is the message of the console then. -/
theorem message_finished [Yaml.Reader] (hc : c.bench.Counted t) {e : ConsoleEvent} {n : Nat}
    (hn : .finished n ∈ (c.bench.newPage.through e.events).notices) :
    (c.happen e).message = "Finished in " ++ toString n ++ " step(s)" := by
  -- only a single step or a heartbeat can bring a run to its end
  cases e with
  | singleStep =>
    obtain ⟨before, htold⟩ := (Workbench.happen_reckoned hc .singleStep).last n hn
    show lastMessage c.message (c.bench.told .singleStep) = _
    rw [htold]
    exact lastMessage_finished (List.forall_mem_nil _)
  | tick beats =>
    obtain ⟨before, after, hnotices, hsilent⟩ := Workbench.heartbeats_finished hc hn
    show lastMessage c.message (c.bench.newPage.tick beats).notices = _
    rw [Workbench.tick_eq_through, hnotices]
    exact lastMessage_finished hsilent
  | manual name =>
    simp only [ConsoleEvent.events] at hn
    cases ha : Action.ofName? name with
    | none => simp [ha, Workbench.newPage] at hn
    | some a =>
      rw [ha] at hn
      exact absurd hn (hc.not_finished (e := .manual a) rfl n)
  | edit source => exact absurd hn (hc.not_finished (e := .edit source) rfl n)
  | play => exact absurd hn (hc.not_finished (e := .play) rfl n)
  | stop files => exact absurd hn (hc.not_finished (e := .stop files) rfl n)
  | resume => exact absurd hn (hc.not_finished (e := .resume) rfl n)
  | changeWorld files name => exact absurd hn (hc.not_finished (e := .changeWorld files name) rfl n)
  | deliver i => exact absurd hn (hc.not_finished (e := .deliver i) rfl n)

end Console

/-! ### Workbenches from their beginning -/

namespace Workbench

section Opened

variable [Yaml.Reader] (config : Config) (library : Library) (loading : Loading) (source : String)
  (initialWorld : Option LooseText) (files : Files)

theorem opened_counted :
    Counted ⟨0, 0⟩ (opened config library loading source initialWorld files).2 := by
  refine load_counted (.of_free (.of_free rfl rfl ?_ []) rfl) files
  exact nofun

/-- In every history of a workbench a run comes to its end exactly when that is told, and the
number that is told is that of the actions of the run together with those by hand since the run
was begun; so it is the number of the run's actions exactly if there were none by hand. A console
shows the number that its workbench tells. -/
theorem finished_count (events : List Event) (e : Event) :
    let start := (opened config library loading source initialWorld files).2
    let b := start.through events
    let t := start.tally ⟨0, 0⟩ (events ++ [e])
    (∀ n, .finished n ∈ b.told e ↔
      b.stepResult? e = some .finished ∧ n = t.program + t.hand) ∧
    (b.stepResult? e = some .finished →
      b.Ends e t.program ∧ (.finished t.program ∈ b.told e ↔ t.hand = 0)) ∧
    ∀ (past : List ConsoleEvent) (last : ConsoleEvent) (n : Nat),
      let c := (Console.opened start).through past
      .finished n ∈ (c.bench.newPage.through last.events).notices →
        (∃ before e, before ++ [e] <+: last.events ∧
          .finished n ∈ (start.through (past.flatMap ConsoleEvent.events ++ before)).told e) ∧
        (c.happen last).message = "Finished in " ++ toString n ++ " step(s)" := by
  intro start b t
  have hstart : start.Counted ⟨0, 0⟩ :=
    opened_counted config library loading source initialWorld files
  have hreckoned : Reckoned (start.tally ⟨0, 0⟩ events) b e :=
    happen_reckoned (through_counted hstart events) e
  have ht : t = (start.tally ⟨0, 0⟩ events).after b e := tally_append events [e]
  rw [ht]
  refine ⟨hreckoned.told, ?_, ?_⟩
  · intro hfinished
    refine ⟨hreckoned.ends hfinished, ?_⟩
    rw [hreckoned.told, and_iff_right hfinished]
    omega
  · intro past last n c hn
    have hbench : c.bench.newPage = (start.through (past.flatMap ConsoleEvent.events)).newPage :=
      Console.through_bench (Console.opened start) past
    have hcounted := through_counted hstart (past.flatMap ConsoleEvent.events)
    refine ⟨?_, Console.message_finished (hcounted.of_newPage hbench) hn⟩
    rcases (mem_through_notices _).1 hn with hn | ⟨before, e', hbefore, hn⟩
    · cases hn
    · refine ⟨before, e', hbefore, ?_⟩
      have hsame : (c.bench.newPage.through before).newPage =
          (start.through (past.flatMap ConsoleEvent.events ++ before)).newPage := by
        rw [hbench, through_newPage, through_append]
      rwa [told, hsame] at hn

end Opened

/-! ### One program, two histories -/

open scoped Yaml.Plain

/-- What the step after a history comes to, and the tally then. -/
def outcomeOf [Yaml.Reader] (b : Workbench) (events : List Event) (e : Event) :
    Option StepResult × Tally :=
  ((b.through events).stepResult? e, b.tally ⟨0, 0⟩ (events ++ [e]))

theorem outcome_stepped :
    oneStep.outcomeOf [.singleStep] .singleStep = (some .finished, ⟨1, 0⟩) := by
  rw [oneStep_eq]
  cbv

theorem outcome_turned :
    oneStep.outcomeOf [.singleStep, .manual .turnLeft] .singleStep = (some .finished, ⟨1, 1⟩) := by
  rw [oneStep_eq]
  cbv

/-- Nothing is done by hand between the steps. -/
theorem finished_count_stepped :
    let b := oneStep.through [.singleStep]
    b.stepResult? .singleStep = some .finished ∧ b.Ends .singleStep 1 ∧
      .finished 1 ∈ b.told .singleStep := by
  intro b
  have hresult : b.stepResult? .singleStep = some .finished := congrArg Prod.fst outcome_stepped
  have htally : oneStep.tally ⟨0, 0⟩ ([.singleStep] ++ [.singleStep]) = ⟨1, 0⟩ :=
    congrArg Prod.snd outcome_stepped
  have hcount (t : Tally) (ht : oneStep.tally ⟨0, 0⟩ ([.singleStep] ++ [.singleStep]) = t) :
      b.Ends .singleStep t.program ∧ (.finished t.program ∈ b.told .singleStep ↔ t.hand = 0) := by
    subst ht
    exact (finished_count _ _ _ _ _ _ [.singleStep] .singleStep).2.1 hresult
  obtain ⟨hends, htold⟩ := hcount _ htally
  exact ⟨hresult, hends, htold.2 rfl⟩

/-- The robot is turned by hand between the two steps of a run of one action: two steps are told. -/
theorem finished_count_turned :
    let b := oneStep.through [.singleStep, .manual .turnLeft]
    let c := (Console.opened oneStep).through [.singleStep, .manual "turnLeft"]
    b.stepResult? .singleStep = some .finished ∧ b.Ends .singleStep 1 ∧
      .finished 2 ∈ b.told .singleStep ∧ .finished 1 ∉ b.told .singleStep ∧
      (c.happen .singleStep).message = "Finished in 2 step(s)" := by
  intro b c
  have hresult : b.stepResult? .singleStep = some .finished := congrArg Prod.fst outcome_turned
  have hb : Counted (oneStep.tally ⟨0, 0⟩ [.singleStep, .manual .turnLeft]) b :=
    through_counted (opened_counted _ _ _ _ _ _) _
  have htally : (oneStep.tally ⟨0, 0⟩ [.singleStep, .manual .turnLeft]).after b .singleStep =
      ⟨1, 1⟩ := by
    have hall := congrArg Prod.snd outcome_turned
    rwa [outcomeOf, tally_append] at hall
  have hreckoned := happen_reckoned hb .singleStep
  have hends := hreckoned.ends hresult
  have htold := hreckoned.told
  rw [htally] at hends htold
  have htwo : .finished 2 ∈ b.told .singleStep := (htold 2).2 ⟨hresult, rfl⟩
  refine ⟨hresult, hends, htwo, fun hone => ?_, ?_⟩
  · cases ((htold 1).1 hone).2
  · have hbench : c.bench.newPage = b.newPage :=
      Console.through_bench (Console.opened oneStep) [.singleStep, .manual "turnLeft"]
    refine Console.message_finished (hb.of_newPage hbench) (n := 2) ?_
    show .finished 2 ∈ (c.bench.newPage.happen .singleStep).notices
    rw [hbench]
    exact htwo

end Workbench

end GridRobot
