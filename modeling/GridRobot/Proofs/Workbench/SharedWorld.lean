import GridRobot.Proofs.Workbench.History
import GridRobot.Proofs.World.Action
import GridRobot.Yaml.Document
import Mathlib

/-!
# The world that is shown and the world that is run on

The workbench and its scheduler each keep the key of their world. A world that arrives is taken if
it has the name that was last asked for, whether or not a run is held. Two worlds of one name can be
on their way at once, and so a second one can arrive while a run is on the first. From then on the
actions of the run are not shown.

## Main definitions

* `Workbench.InStep` says that a run that is held is on the world that is shown.
* `Workbench.Intrudes` says that a world of the present name arrives while a run is held.
* `Workbench.Shows` says that the shown layout changes as an action changes it.
* `Workbench.Orderly` is the invariant: worlds have keys of their own, and a run has a world.

## Main statements

* `Workbench.inStep_happen_iff`: the one event that parts the two worlds is an intrusion.
* `Workbench.shows_iff_inStep`: an action of the run is shown exactly when the two are one.
* `Workbench.shared_world_iff`: both of this for every history of a workbench whose worlds arrive
  later.
-/

namespace GridRobot.Workbench

/-- A run that is held is on the world that is shown. -/
def InStep (b : Workbench) : Prop :=
  ∀ h, b.desk.scheduler.held = some h → b.shown = some h.world

/-- The event delivers a world of the present name while a run is held. -/
def Intrudes (b : Workbench) (e : Event) : Prop :=
  b.Brings e ∧ b.desk.scheduler.held.isSome

/-- The layout that was shown has become what an action makes of it. -/
def Shows (b b' : Workbench) (a : Action) : Prop :=
  ∃ w after, b.world? = some w ∧ w.perform a = .ok after ∧ b'.model? = some after.snapshot

/-- What the step of a program came to, if the event makes one. -/
def stepResult? (b : Workbench) : Event → Option StepResult
  | .heartbeat => (b.ask .heartbeat).1
  | .singleStep =>
    match b.singleStep.1 with
    | .ok r => r
    | .error _ => none
  | _ => none

/-! ### The invariant -/

/-- Worlds arrive later; the keys are below the next one; the world of a run has a key. -/
structure Orderly (b : Workbench) : Prop where
  queued : b.loading = .queued
  keys_lt : ∀ key ∈ b.desk.keys, key < b.desk.worlds.length
  held_mem : ∀ h, b.desk.scheduler.held = some h → h.world ∈ b.desk.keys

variable {b b' : Workbench} {e : Event}

theorem Undisturbed.orderly (h : Undisturbed b b') (ho : b.Orderly) : b'.Orderly where
  queued := h.loading.trans ho.queued
  keys_lt := by
    have hlength : b'.desk.worlds.length = b.desk.worlds.length := by
      simpa [Desk.keys] using congrArg List.length h.follows.keys
    rw [h.follows.keys, hlength]
    exact ho.keys_lt
  held_mem := by
    intro r' hr'
    rw [h.follows.keys]
    rcases h.follows.held r' hr' with ⟨r, hr, hworld⟩ | ⟨-, hmem⟩
    · rw [hworld]
      exact ho.held_mem r hr
    · exact hmem

theorem Orderly.happen [Yaml.Reader] (ho : b.Orderly) (e : Event) : (b.happen e).Orderly := by
  by_cases hb : b.Brings e
  · obtain ⟨w, hdesk, -, hloading⟩ := happen_brings hb
    refine ⟨hloading.trans ho.queued, ?_, ?_⟩
    · rw [hdesk]
      intro key hkey
      rcases List.mem_cons.1 hkey with rfl | hold
      · exact Nat.lt_succ_self _
      · exact Nat.lt_succ_of_lt (ho.keys_lt key hold)
    · rw [hdesk]
      intro h hh
      exact List.mem_cons_of_mem _ (ho.held_mem h hh)
  · exact (happen_undisturbed ho.queued hb).orderly ho

/-! ### One event -/

theorem Undisturbed.inStep (h : Undisturbed b b') (hs : b.InStep) : b'.InStep := by
  intro r' hr'
  have hshown : b'.shown = b.shown := by
    rcases h.shown with hshown | ⟨-, hheld⟩
    · exact hshown
    · simp [hheld] at hr'
  rw [hshown]
  rcases h.follows.held r' hr' with ⟨r, hr, hworld⟩ | ⟨hgiven, -⟩
  · rw [hworld]
    exact hs r hr
  · exact hgiven

/-- A run and the world that is shown are parted by an intrusion and by nothing else. -/
theorem inStep_happen_iff [Yaml.Reader] (ho : b.Orderly) (hs : b.InStep) :
    (b.happen e).InStep ↔ ¬ b.Intrudes e := by
  by_cases hb : b.Brings e
  · obtain ⟨w, hdesk, hshown, -⟩ := happen_brings hb
    constructor
    · rintro hs' ⟨-, hheld⟩
      obtain ⟨h, hh⟩ := Option.isSome_iff_exists.1 hheld
      -- the new key is no key of a world that was there
      have hnew : some b.desk.worlds.length = some h.world := by
        rw [← hshown]
        exact hs' h (by rw [hdesk]; exact hh)
      have hlt := ho.keys_lt h.world (ho.held_mem h hh)
      rw [← Option.some.inj hnew] at hlt
      exact Nat.lt_irrefl _ hlt
    · intro hno h hh
      rw [hdesk] at hh
      exact absurd ⟨hb, by rw [hh]; rfl⟩ hno
  · constructor
    · exact fun _ hintrudes => hb hintrudes.1
    · exact fun _ => (happen_undisturbed ho.queued hb).inStep hs

/-! ### A history -/

/-- All along a history the two worlds are one exactly if there is no intrusion in it. -/
theorem inStep_through_iff [Yaml.Reader] (ho : b.Orderly) (hs : b.InStep) (events : List Event) :
    (∀ past, past <+: events → (b.through past).InStep) ↔
      ∀ past e, past ++ [e] <+: events → ¬ (b.through past).Intrudes e := by
  induction events generalizing b with
  | nil =>
    constructor
    · intro _ past e h
      simp at h
    · intro _ past h
      rw [List.prefix_nil.1 h, through_nil]
      exact hs
  | cons e events ih =>
    by_cases hi : b.Intrudes e
    · refine iff_of_false ?_ ?_
      · intro hall
        exact (inStep_happen_iff ho hs).1 (hall [e] (by simp)) hi
      · intro hall
        exact hall [] e (by simp) hi
    · have hs' : (b.happen e).InStep := (inStep_happen_iff ho hs).2 hi
      have hrest := ih (ho.happen e) hs'
      constructor
      · intro hall past e' hpast
        cases past with
        | nil =>
          obtain rfl : e' = e := by simpa using hpast
          exact hi
        | cons first past =>
          obtain ⟨rfl, htail⟩ := List.cons_prefix_cons.1 hpast
          rw [through_cons]
          refine hrest.1 (fun past' h => ?_) past e' htail
          exact hall (first :: past') (List.cons_prefix_cons.2 ⟨rfl, h⟩)
      · intro hall past hpast
        rcases List.prefix_cons_iff.1 hpast with rfl | ⟨past, rfl, htail⟩
        · exact hs
        · rw [through_cons]
          refine hrest.2 (fun past' e' h => ?_) past htail
          exact hall (e :: past') e' (List.cons_prefix_cons.2 ⟨rfl, h⟩)

/-! ### What is seen of an action -/

theorem ask_result {q : Request Nat} {r : StepResult} (h : (b.ask q).1 = some r) :
    (b.desk.perform q).answer = .result r := by
  unfold ask accept at h
  simp only at h
  split at h
  · rename_i hr
    cases h
    exact hr
  · cases h
  · cases h

theorem ask_desk {q : Request Nat} :
    (b.ask q).2.desk = (b.desk.perform q).desk ∧ (b.ask q).2.shown = b.shown := by
  obtain ⟨ns, n, hask⟩ := accept_eq b (b.desk.perform q)
  unfold ask
  rw [hask]
  exact ⟨rfl, rfl⟩

/-- A step that goes on has performed an action on the world of the run that is held. -/
theorem happen_continued [Yaml.Reader] (h : b.stepResult? e = some .continued) :
    (∃ a, b.desk.Acts (b.happen e).desk a) ∧ (b.happen e).shown = b.shown := by
  cases e with
  | heartbeat =>
    obtain ⟨a, ha⟩ := Desk.perform_heartbeat_continued (ask_result h)
    obtain ⟨hdesk, hshown⟩ := ask_desk (b := b) (q := .heartbeat)
    obtain ⟨ns, n, hbeat⟩ := heartbeat_eq b
    simp only [happen, hbeat]
    exact ⟨⟨a, by rw [hdesk]; exact ha⟩, hshown⟩
  | singleStep =>
    simp only [stepResult?] at h
    obtain ⟨p, reads, last, ns, n, hstep⟩ | ⟨hnone, -⟩ := singleStep_cases b
    · simp only [hstep] at h
      simp only [happen, hstep]
      obtain ⟨a, ha⟩ := Desk.perform_step_continued (ask_result h)
      rw [ask_desk.1, ask_desk.2]
      exact ⟨⟨a, ha⟩, rfl⟩
    · split at h
      · rename_i r hr
        rw [h] at hr
        exact absurd hr (hnone _)
      · cases h
  | _ => cases h

/-- An action of the run is shown exactly if the run is on the world that is shown. -/
theorem shows_iff_inStep {a : Action} (hacts : b.desk.Acts b'.desk a)
    (hshown : b'.shown = b.shown) : b.Shows b' a ↔ b'.InStep := by
  obtain ⟨h, w, after, hheld, hworld, hdone, hworlds⟩ := hacts
  constructor
  · rintro ⟨seen, next, hseen, hnext, hmodel⟩ h' hh'
    obtain rfl : h = h' := Option.some.inj (hheld.symm.trans hh')
    obtain ⟨key, hkey, hget⟩ := Option.bind_eq_some_iff.1 hseen
    by_cases hsame : key = h.world
    · rw [hshown, hkey, hsame]
    · -- another world is shown, and it is as it was
      have hstill : b'.model? = some seen.snapshot := by
        simp only [model?, world?, hshown, hkey, hworlds, Option.bind_some,
          Worlds.get?_set_ne hsame, hget, Option.map_some]
      rw [hstill] at hmodel
      exact absurd (Option.some.inj hmodel).symm (World.perform_snapshot_ne hnext)
  · intro hs
    have hkey := hs h hheld
    refine ⟨w, after, ?_, hdone, ?_⟩
    · rw [world?, ← hshown, hkey]
      exact hworld
    · have hset := Worlds.get?_set_self (w := after) (Option.isSome_of_eq_some hworld)
      simp only [model?, world?, hkey, hworlds, Option.bind_some, hset, Option.map_some]

/-! ### Workbenches from their beginning -/

section Opened

variable [Yaml.Reader] (config : Config) (library : Library) (source : String)
  (initialWorld : Option LooseText) (files : Files)

theorem opened_eq : ∃ waiting, (opened config library .queued source initialWorld files).2 =
    { bare config library .queued source initialWorld with arrivals := waiting } := by
  obtain ⟨waiting, hload⟩ :=
    load_queued (b := bare config library .queued source initialWorld) rfl files
  exact ⟨waiting, hload⟩

theorem opened_orderly : (opened config library .queued source initialWorld files).2.Orderly := by
  obtain ⟨waiting, hopened⟩ := opened_eq config library source initialWorld files
  rw [hopened]
  refine ⟨rfl, ?_, ?_⟩
  · intro key hkey
    cases hkey
  · intro h hh
    cases hh

theorem opened_inStep : (opened config library .queued source initialWorld files).2.InStep := by
  obtain ⟨waiting, hopened⟩ := opened_eq config library source initialWorld files
  rw [hopened]
  intro h hh
  cases hh

/-- In every history of a workbench whose worlds arrive later, the run and the world that is shown
stay together exactly if no world of the present name arrives while a run is held; and an action of
the run changes the shown layout exactly if they are together then. -/
theorem shared_world_iff (events : List Event) :
    let start := (opened config library .queued source initialWorld files).2
    ((∀ past, past <+: events → (start.through past).InStep) ↔
      ∀ past e, past ++ [e] <+: events → ¬ (start.through past).Intrudes e) ∧
    ∀ e, (start.through events).stepResult? e = some .continued →
      (∃ a, (start.through events).desk.Acts (start.through (events ++ [e])).desk a) ∧
      ∀ a, (start.through events).desk.Acts (start.through (events ++ [e])).desk a →
        ((start.through events).Shows (start.through (events ++ [e])) a ↔
          (start.through (events ++ [e])).InStep) := by
  intro start
  have horderly : start.Orderly := opened_orderly config library source initialWorld files
  have hinStep : start.InStep := opened_inStep config library source initialWorld files
  refine ⟨inStep_through_iff horderly hinStep events, ?_⟩
  intro e hgo
  obtain ⟨hacts, hshown⟩ := happen_continued hgo
  rw [through_concat]
  exact ⟨hacts, fun a ha => shows_iff_inStep ha hshown⟩

end Opened

/-! ### One workbench, two histories -/

open scoped Yaml.Plain

/-- A configuration with the name of a blank world of three cells. -/
def threeCellsConfig : Config :=
  ⟨⟨1, 1, 1⟩, ⟨1, 1, 1⟩, ⟨"3x1.w", ⟨.here, []⟩, none⟩, ⟨1, 1⟩⟩

/-- A workbench with a program of one step, which has asked for a blank world of three cells. -/
def threeCells : Workbench :=
  (opened threeCellsConfig ⟨none, none⟩ .queued "move();" none (.empty [])).2

/-- The same workbench, where the world is there at once. -/
def oneStep : Workbench :=
  (opened threeCellsConfig ⟨none, none⟩ .direct "move();" none (.empty [])).2

/-- The blank world of three cells that is looked up. -/
theorem found_threeCells : Library.load ⟨none, none⟩ (.empty []) "3x1.w" =
    (Except.ok ⟨3, 1, .home, [], [], none⟩ : Except LoadError Description).mapError .error := by
  decide +kernel

theorem threeCells_eq : threeCells =
    { bare threeCellsConfig ⟨none, none⟩ .queued "move();" none with
      arrivals := [⟨"3x1.w", .ok ⟨3, 1, .home, [], [], none⟩⟩] } :=
  opened_found found_threeCells

theorem oneStep_eq : oneStep =
    (bare threeCellsConfig ⟨none, none⟩ .direct "move();" none).deliver
      ⟨"3x1.w", .ok ⟨3, 1, .home, [], [], none⟩⟩ :=
  opened_delivered found_threeCells

/-- What the step came to, and then the key of the shown world and that of the run's world. -/
def outlook [Yaml.Reader] (b : Workbench) (e : Event) :
    Option StepResult × Option Nat × Option Nat :=
  (b.stepResult? e, (b.happen e).shown, (b.happen e).desk.scheduler.held.map Held.world)

theorem outlook_together : (threeCells.through [.deliver 0, .play]).outlook .heartbeat =
    (some .continued, some 0, some 0) := by
  rw [threeCells_eq]
  cbv

theorem outlook_parted :
    (threeCells.through [.stop (.empty []), .deliver 0, .play, .deliver 0]).outlook .heartbeat =
      (some .continued, some 1, some 0) := by
  rw [threeCells_eq, through_cons, happen, stop_found rfl found_threeCells]
  cbv

theorem shared_world_iff_threeCells :
    let b := threeCells.through [.deliver 0, .play]
    b.stepResult? .heartbeat = some .continued ∧
      ∃ a, b.desk.Acts (b.happen .heartbeat).desk a ∧ b.Shows (b.happen .heartbeat) a := by
  intro b
  have hgo : b.stepResult? .heartbeat = some .continued := congrArg Prod.fst outlook_together
  have hshown : (b.happen .heartbeat).shown = some 0 := congrArg (·.2.1) outlook_together
  have hworld : (b.happen .heartbeat).desk.scheduler.held.map Held.world = some 0 :=
    congrArg (·.2.2) outlook_together
  have hinStep : (b.happen .heartbeat).InStep := by
    intro h hh
    rw [hh] at hworld
    exact hshown.trans hworld.symm
  obtain ⟨⟨a, ha⟩, hshows⟩ := (shared_world_iff _ _ _ _ _ [.deliver 0, .play]).2 .heartbeat hgo
  exact ⟨hgo, a, ha, (hshows a ha).2 hinStep⟩

/-- The same world is asked for twice. The program is begun on the first to arrive, and then the
second one is shown: the step that the program makes is not seen. -/
theorem second_arrival_parts :
    let b := threeCells.through [.stop (.empty []), .deliver 0, .play, .deliver 0]
    b.stepResult? .heartbeat = some .continued ∧
      (∃ a, b.desk.Acts (b.happen .heartbeat).desk a) ∧
      (∀ a, b.desk.Acts (b.happen .heartbeat).desk a → ¬ b.Shows (b.happen .heartbeat) a) ∧
      ¬ (b.happen .heartbeat).InStep := by
  intro b
  have hgo : b.stepResult? .heartbeat = some .continued := congrArg Prod.fst outlook_parted
  have hshown : (b.happen .heartbeat).shown = some 1 := congrArg (·.2.1) outlook_parted
  have hworld : (b.happen .heartbeat).desk.scheduler.held.map Held.world = some 0 :=
    congrArg (·.2.2) outlook_parted
  have hparted : ¬ (b.happen .heartbeat).InStep := by
    obtain ⟨h, hheld, hzero⟩ := Option.map_eq_some_iff.1 hworld
    intro hs
    have hone := hshown.symm.trans (hs h hheld)
    rw [hzero] at hone
    cases hone
  obtain ⟨hacts, hsame⟩ := happen_continued hgo
  refine ⟨hgo, hacts, fun a ha hshows => ?_, hparted⟩
  exact hparted ((shows_iff_inStep ha hsame).1 hshows)

end GridRobot.Workbench
