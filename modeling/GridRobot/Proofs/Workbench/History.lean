import GridRobot.Proofs.Scheduler.Desk
import GridRobot.Workbench.Requests

/-!
# What happens at a workbench

The history of a workbench is a row of events: requests, heartbeats, and arrivals of worlds in any
order. Here it is said once what an event does to the run that is held, to the world that is shown,
and to the keys of the worlds.

## Main definitions

* `Event` is what can happen, `Workbench.happen` what comes of it, and `Workbench.through` what
  comes of a history.
* `Workbench.Brings` says that an event delivers a world of the present name.
* `Workbench.Undisturbed` says that the run and the world that is shown do not part.

## Main statements

* `Workbench.happen_brings`: a delivered world is shown under a new key.
* `Workbench.happen_undisturbed`: every other event leaves the run and the shown world as they were,
  takes both away, or begins a run on the shown world.
-/

namespace GridRobot

/-- What can happen at a workbench; a request for a world comes with the files as they are then. -/
inductive Event where
  | edit (source : String)
  | play
  | stop (files : Files)
  | resume
  | singleStep
  | changeWorld (files : Files) (name : LooseText)
  | manual (a : Action)
  | heartbeat
  /-- An arrival is delivered, by its place among those that wait. -/
  | deliver (i : Int)

namespace Workbench

section

variable [Yaml.Reader]

/-- A workbench after an event. -/
def happen (b : Workbench) : Event → Workbench
  | .edit source => { b with source := source }
  | .play => b.play.2
  | .stop files => (b.stop files).2
  | .resume => b.resume
  | .singleStep => b.singleStep.2
  | .changeWorld files name => (b.changeWorld files name).2
  | .manual a => (b.manual a).2
  | .heartbeat => b.heartbeat
  | .deliver i => b.deliverAt i

/-- A workbench after some events in turn. -/
def through (b : Workbench) (events : List Event) : Workbench :=
  events.foldl happen b

@[simp] theorem through_nil (b : Workbench) : b.through [] = b := rfl

@[simp] theorem through_cons (b : Workbench) (e : Event) (events : List Event) :
    b.through (e :: events) = (b.happen e).through events := rfl

@[simp] theorem through_concat (b : Workbench) (events : List Event) (e : Event) :
    b.through (events ++ [e]) = (b.through events).happen e := by
  simp [through]

end

/-! ### What is only told -/

variable {b b' : Workbench}

theorem draw_eq (b : Workbench) : ∃ ns, b.draw = { b with notices := ns } := by
  unfold draw
  split
  · exact ⟨_, rfl⟩
  · exact ⟨_, rfl⟩

theorem hear_eq (b : Workbench) (r : StepResult) :
    ∃ ns n, b.hear r = { b with notices := ns, steps := n } := by
  obtain ⟨ns, hns⟩ := draw_eq { b with
    steps := if r = StepResult.continued then b.steps + 1 else b.steps }
  unfold hear
  simp only
  rw [hns]
  cases r with
  | continued => exact ⟨_, _, rfl⟩
  | finished => exact ⟨_, _, rfl⟩
  | fault f => exact ⟨_, _, rfl⟩

theorem accept_eq (b : Workbench) (o : Desk.Outcome Nat) :
    ∃ ns n, (b.accept o).2 = { b with desk := o.desk, notices := ns, steps := n } := by
  unfold accept
  simp only
  split
  · rename_i r _
    obtain ⟨ns, n, hns⟩ := hear_eq { b with desk := o.desk } r
    exact ⟨ns, n, hns⟩
  · exact ⟨_, _, rfl⟩
  · exact ⟨_, _, rfl⟩

theorem compile_eq (b : Workbench) :
    ∃ reads last ns, b.compile.2 = { b with reads := reads, lastCompile := last, notices := ns } := by
  unfold compile
  simp only
  split <;> exact ⟨_, _, _, rfl⟩

theorem heartbeat_eq (b : Workbench) :
    ∃ ns n, b.heartbeat = { (b.ask .heartbeat).2 with notices := ns, refresh := n } := by
  unfold heartbeat
  simp only
  split
  · exact ⟨_, _, rfl⟩
  · split
    · obtain ⟨ns, hns⟩ := draw_eq
        { (b.ask .heartbeat).2 with refresh := (b.ask .heartbeat).2.refreshPeriod }
      exact ⟨ns, _, hns⟩
    · exact ⟨_, _, rfl⟩

/-- A single step is a request to the desk, or it is not made. -/
theorem singleStep_cases (b : Workbench) :
    (∃ p reads last ns n,
      let ready := { b with reads := reads, lastCompile := last, notices := ns, steps := n }
      b.singleStep = (.ok (ready.ask (.step p b.shown)).1, (ready.ask (.step p b.shown)).2)) ∨
    ((∀ r, b.singleStep.1 ≠ .ok (some r)) ∧
      ∃ reads last ns,
        b.singleStep.2 = { b with reads := reads, lastCompile := last, notices := ns }) := by
  unfold singleStep
  split
  · exact .inl ⟨none, b.reads, b.lastCompile, b.notices, b.steps, rfl⟩
  · obtain ⟨reads, last, ns, hcompile⟩ := compile_eq b
    split
    all_goals
      rename_i hc
      rw [hc] at hcompile
      subst hcompile
    · rename_i p
      exact .inl ⟨some p, reads, last, ns, 0, rfl⟩
    · exact .inr ⟨by simp, reads, last, ns, rfl⟩
    · exact .inr ⟨by simp, reads, last, ns, rfl⟩

/-! ### Deliveries -/

theorem install_eq (b : Workbench) (name : LooseText) (w : World) :
    ∃ ns, b.install name w = { b with
      desk := ⟨b.desk.scheduler, (b.desk.worlds.length, w) :: b.desk.worlds⟩
      shown := some b.desk.worlds.length
      notices := ns } := by
  obtain ⟨ns, hns⟩ := draw_eq { b with
    desk := ⟨b.desk.scheduler, (b.desk.worlds.length, w) :: b.desk.worlds⟩
    shown := some b.desk.worlds.length }
  unfold install
  simp only
  rw [hns]
  exact ⟨_, rfl⟩

/-- What a delivery comes to: there is nothing to deliver, or what is delivered is no world of the
present name and is at most told, or it is such a world. -/
theorem deliverAt_cases (b : Workbench) (i : Int) :
    b.deliverAt i = b ∨
      (∃ a ns, b.arrivals[i.toNat]? = some a ∧
        b.deliverAt i = { b with arrivals := b.arrivals.eraseIdx i.toNat, notices := ns } ∧
        ∀ d w, a.outcome = .ok d → World.ofDescription d = .ok w → a.name ≠ b.worldName) ∨
      ∃ a d w ns, 0 ≤ i ∧ b.arrivals[i.toNat]? = some a ∧ a.name = b.worldName ∧
        a.outcome = .ok d ∧ World.ofDescription d = .ok w ∧ b.deliverAt i = { b with
          arrivals := b.arrivals.eraseIdx i.toNat
          desk := ⟨b.desk.scheduler, (b.desk.worlds.length, w) :: b.desk.worlds⟩
          shown := some b.desk.worlds.length
          notices := ns } := by
  unfold deliverAt
  split
  · exact .inl rfl
  · rename_i a ha
    have hi : ¬ i < 0 := by
      intro hneg
      simp [hneg] at ha
    rw [if_neg hi] at ha
    unfold deliver
    split
    · rename_i e he
      refine .inr (.inl ⟨a, _, ha, rfl, ?_⟩)
      intro d w hok
      rw [he] at hok
      cases hok
    · rename_i d hok
      split
      · rename_i hname
        exact .inr (.inl ⟨a, _, ha, rfl, fun _ _ _ _ => hname⟩)
      · rename_i hname
        split
        · rename_i w hw
          obtain ⟨ns, hns⟩ :=
            install_eq { b with arrivals := b.arrivals.eraseIdx i.toNat } a.name w
          exact .inr (.inr ⟨a, d, w, ns, Int.not_lt.1 hi, ha, Decidable.not_not.1 hname, hok, hw,
            hns⟩)
        · rename_i e hw
          refine .inr (.inl ⟨a, _, ha, rfl, ?_⟩)
          intro d' w hok' hw'
          rw [hok] at hok'
          cases hok'
          rw [hw] at hw'
          cases hw'

/-- The event delivers a world, and the world has the name that was last asked for. -/
def Brings (b : Workbench) : Event → Prop
  | .deliver i => 0 ≤ i ∧ ∃ a d w, b.arrivals[i.toNat]? = some a ∧ a.name = b.worldName ∧
      a.outcome = .ok d ∧ World.ofDescription d = .ok w
  | _ => False

/-- A delivered world is shown under a new key, and the scheduler is left alone. -/
theorem happen_brings [Yaml.Reader] {e : Event} (h : b.Brings e) :
    ∃ w, (b.happen e).desk = ⟨b.desk.scheduler, (b.desk.worlds.length, w) :: b.desk.worlds⟩ ∧
      (b.happen e).shown = some b.desk.worlds.length ∧ (b.happen e).loading = b.loading := by
  cases e with
  | deliver i =>
    obtain ⟨hi, a, d, w, ha, hname, hok, hw⟩ := h
    have hnot : ¬ i < 0 := by omega
    simp only [happen, deliverAt, hnot, if_false, ha, deliver, hok, hname, ne_eq, not_true, hw]
    obtain ⟨ns, hns⟩ :=
      install_eq { b with arrivals := b.arrivals.eraseIdx i.toNat } b.worldName w
    rw [hns]
    exact ⟨w, rfl, rfl, rfl⟩
  | _ => cases h

/-! ### Worlds that are looked up -/

section Found

variable [Yaml.Reader] {files : Files} {name : LooseText} {found : Except LoadError Description}

/-- What is found under the present name, or why there is nothing, is on its way. -/
theorem load_found (hqueued : b.loading = .queued)
    (h : b.library.load files b.worldName = found.mapError .error) :
    b.load files =
      (.ok (), { b with shown := none, arrivals := b.arrivals ++ [⟨b.worldName, found⟩] }) := by
  unfold load
  rw [h, hqueued]
  cases found <;> rfl

/-- What is found under the present name, or why there is nothing, is delivered at once. -/
theorem load_delivered (hdirect : b.loading = .direct)
    (h : b.library.load files b.worldName = found.mapError .error) :
    b.load files = (.ok (), { b with shown := none }.deliver ⟨b.worldName, found⟩) := by
  unfold load
  rw [h, hdirect]
  cases found <;> rfl

theorem stop_found (hqueued : b.loading = .queued)
    (h : b.library.load files b.worldName = found.mapError .error) :
    b.stop files = (.ok (), { (b.ask .stop).2 with
      shown := none
      arrivals := b.arrivals ++ [⟨b.worldName, found⟩] }) :=
  load_found (b := (b.ask .stop).2) hqueued h

theorem changeWorld_found (hqueued : b.loading = .queued)
    (h : b.library.load files name = found.mapError .error) :
    b.changeWorld files name = (.ok (), { (b.ask .reset).2 with
      worldName := name
      shown := none
      arrivals := b.arrivals ++ [⟨name, found⟩] }) :=
  load_found (b := { (b.ask .reset).2 with worldName := name }) hqueued h

theorem changeWorld_delivered (hdirect : b.loading = .direct)
    (h : b.library.load files name = found.mapError .error) :
    b.changeWorld files name = (.ok (), { (b.ask .reset).2 with
      worldName := name
      shown := none }.deliver ⟨name, found⟩) :=
  load_delivered (b := { (b.ask .reset).2 with worldName := name }) hdirect h

variable {config : Config} {library : Library} {source : String} {initialWorld : Option LooseText}

theorem opened_found
    (h : library.load files (firstName config initialWorld) = found.mapError .error) :
    (opened config library .queued source initialWorld files).2 =
      { bare config library .queued source initialWorld with
        arrivals := [⟨firstName config initialWorld, found⟩] } :=
  congrArg Prod.snd (load_found (b := bare config library .queued source initialWorld) rfl h)

theorem opened_delivered
    (h : library.load files (firstName config initialWorld) = found.mapError .error) :
    (opened config library .direct source initialWorld files).2 =
      (bare config library .direct source initialWorld).deliver
        ⟨firstName config initialWorld, found⟩ :=
  congrArg Prod.snd (load_delivered (b := bare config library .direct source initialWorld) rfl h)

end Found

/-! ### Other events -/

/-- No world has come in between: a run is on the world it was on before or on the one that is
shown, and the shown world stays or goes together with the run. -/
structure Undisturbed (b b' : Workbench) : Prop where
  loading : b'.loading = b.loading
  follows : b.desk.Follows b.shown b'.desk
  shown : b'.shown = b.shown ∨ (b'.shown = none ∧ b'.desk.scheduler.held = none)

theorem Undisturbed.of_eq (hloading : b'.loading = b.loading) (hdesk : b'.desk = b.desk)
    (hshown : b'.shown = b.shown) : Undisturbed b b' where
  loading := hloading
  follows := .of_held (by rw [hdesk]) (by rw [hdesk])
  shown := .inl hshown

theorem ask_undisturbed {q : Request Nat} (hq : ∀ key, q.world? = some key → b.shown = some key) :
    Undisturbed b (b.ask q).2 := by
  have hfollows := Desk.perform_follows (d := b.desk) q
  obtain ⟨ns, n, hask⟩ := accept_eq b (b.desk.perform q)
  unfold ask
  rw [hask]
  exact ⟨rfl, hfollows.mono hq, .inl rfl⟩

theorem play_undisturbed : Undisturbed b b.play.2 := by
  obtain ⟨reads, last, ns, hcompile⟩ := compile_eq b
  unfold play
  split
  · rename_i p compiled hp
    rw [hp] at hcompile
    subst hcompile
    -- the count of the steps is of no concern here
    have hask := ask_undisturbed (b := { b with reads := reads, lastCompile := last, notices := ns })
      (q := .start (some p) b.shown) (fun _ h => h)
    simp only
    split
    · exact ⟨hask.loading, hask.follows, hask.shown⟩
    · exact ⟨hask.loading, hask.follows, hask.shown⟩
  · rw [hcompile]
    exact .of_eq rfl rfl rfl

theorem singleStep_undisturbed : Undisturbed b b.singleStep.2 := by
  obtain ⟨p, reads, last, ns, n, hstep⟩ | ⟨-, reads, last, ns, hstep⟩ := singleStep_cases b
  · have hask := ask_undisturbed
      (b := { b with reads := reads, lastCompile := last, notices := ns, steps := n })
      (q := .step p b.shown) (fun _ h => h)
    rw [hstep]
    exact ⟨hask.loading, hask.follows, hask.shown⟩
  · rw [hstep]
    exact .of_eq rfl rfl rfl

theorem load_queued [Yaml.Reader] (hqueued : b.loading = .queued) (files : Files) :
    ∃ waiting, (b.load files).2 = { b with shown := none, arrivals := waiting } := by
  unfold load
  simp only [hqueued]
  split
  · exact ⟨_, rfl⟩
  · exact ⟨_, rfl⟩
  · exact ⟨_, rfl⟩
  · simp_all

theorem load_undisturbed [Yaml.Reader] {given : Workbench} (hqueued : b.loading = .queued)
    (h : Undisturbed given b) (hheld : b.desk.scheduler.held = none) (files : Files) :
    Undisturbed given (b.load files).2 := by
  obtain ⟨waiting, hload⟩ := load_queued hqueued files
  rw [hload]
  exact ⟨h.loading, h.follows, .inr ⟨rfl, hheld⟩⟩

theorem heartbeat_undisturbed : Undisturbed b b.heartbeat := by
  have hask : Undisturbed b (b.ask .heartbeat).2 := ask_undisturbed (fun _ h => by cases h)
  obtain ⟨ns, n, hbeat⟩ := heartbeat_eq b
  rw [hbeat]
  exact ⟨hask.loading, hask.follows, hask.shown⟩

theorem deliverAt_undisturbed {i : Int} (h : ¬ b.Brings (.deliver i)) :
    Undisturbed b (b.deliverAt i) := by
  obtain hsame | ⟨a, ns, _, hdel, _⟩ | ⟨a, d, w, ns, hi, ha, hname, hok, hw, _⟩ :=
    deliverAt_cases b i
  · rw [hsame]
    exact .of_eq rfl rfl rfl
  · rw [hdel]
    exact .of_eq rfl rfl rfl
  · exact absurd ⟨hi, a, d, w, ha, hname, hok, hw⟩ h

/-- An event that delivers no world of the present name does not part the run and the world that is
shown. -/
theorem happen_undisturbed [Yaml.Reader] {e : Event} (hqueued : b.loading = .queued)
    (h : ¬ b.Brings e) :
    Undisturbed b (b.happen e) := by
  cases e with
  | edit source => exact .of_eq rfl rfl rfl
  | play => exact play_undisturbed
  | stop files =>
    have hask : Undisturbed b (b.ask .stop).2 := ask_undisturbed (fun _ h => by cases h)
    exact load_undisturbed (hask.loading.trans hqueued) hask rfl files
  | resume => exact ask_undisturbed (fun _ h => by cases h)
  | singleStep => exact singleStep_undisturbed
  | changeWorld files name =>
    have hask : Undisturbed b (b.ask .reset).2 := ask_undisturbed (fun _ h => by cases h)
    exact load_undisturbed (b := { (b.ask .reset).2 with worldName := name })
      (hask.loading.trans hqueued) ⟨hask.loading, hask.follows, hask.shown⟩ rfl files
  | manual a => exact ask_undisturbed (fun _ h => h)
  | heartbeat => exact heartbeat_undisturbed
  | deliver i => exact deliverAt_undisturbed h

end Workbench

end GridRobot
