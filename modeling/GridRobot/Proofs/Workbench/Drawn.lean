import GridRobot.Proofs.Scheduler.Untouched
import GridRobot.Proofs.Workbench.Answered

/-!
# What is shown is what is there

Whatever happens at a workbench, the picture that was drawn last is that of the world as it is; and
while no world is there, no run is held and nothing is animated.

## Main definitions

* `lastFrame?` is the picture that was drawn last.
* `Workbench.Drawn` says what was said above.

## Main statements

* `Workbench.happen_drawn`: every event keeps it so.
* `Workbench.drawn_through`: it is so in every history, also as seen from a console.
-/

namespace GridRobot

/-- The picture that a notice shows. -/
def Notice.frame? : Notice → Option Description
  | .drawn d => some d
  | _ => none

/-- The picture that was drawn last. -/
def lastFrame? (notices : List Notice) : Option Description :=
  (notices.filterMap Notice.frame?).getLast?

/-- A notice that shows no picture. -/
def Notice.Frameless (n : Notice) : Prop :=
  n.frame? = none

theorem lastFrame?_append {notices more : List Notice} (h : ∀ n ∈ more, n.Frameless) :
    lastFrame? (notices ++ more) = lastFrame? notices := by
  have hnone : more.filterMap Notice.frame? = [] := List.filterMap_eq_nil_iff.2 h
  simp [lastFrame?, hnone]

namespace Workbench

variable {b b' : Workbench} {d : Description}

/-- A picture of the world is the last one as long as nothing else is drawn after it. -/
theorem lastFrame?_picture (hmodel : b.model? = some d) (before : List Notice)
    {after : List Notice} (h : ∀ n ∈ after, n.Frameless) :
    lastFrame? (before ++ (b.picture ++ after)) = some d := by
  rw [← List.append_assoc, lastFrame?_append h]
  simp [lastFrame?, picture, hmodel, Notice.frame?]

/-- No world is there and the desk stands still, or the world that is there was drawn last as it
is. -/
structure Drawn (b : Workbench) : Prop where
  steady : b.desk.Steady
  vacant : b.world? = none → b.desk.Still
  drawn : ∀ d, b.model? = some d → lastFrame? b.notices = some d

theorem Drawn.of_vacant (hsteady : b.desk.Steady) (hstill : b.desk.Still)
    (hworld : b.world? = none) : Drawn b where
  steady := hsteady
  vacant := fun _ => hstill
  drawn := by simp [model?, hworld]

/-- What is told without a picture changes nothing if the desk and the shown world stay. -/
theorem Drawn.of_frameless (hb : b.Drawn) (hdesk : b'.desk = b.desk) (hshown : b'.shown = b.shown)
    {more : List Notice} (hnotices : b'.notices = b.notices ++ more)
    (hmore : ∀ n ∈ more, n.Frameless) : b'.Drawn := by
  have hworld : b'.world? = b.world? := by rw [world?, world?, hdesk, hshown]
  refine ⟨hdesk ▸ hb.steady, ?_, ?_⟩
  · rw [hworld, hdesk]
    exact hb.vacant
  · rw [model?, hworld, hnotices, lastFrame?_append hmore]
    exact hb.drawn

theorem news_frameless (r : StepResult) (steps : Nat) : ∀ n ∈ r.news steps, n.Frameless := by
  cases r <;> simp [StepResult.news, Notice.Frameless, Notice.frame?]

theorem heard_frameless {a : Answer} (ha : a.result? = none) :
    ∀ n ∈ b.heard a, n.Frameless := by
  cases a with
  | result r => cases ha
  | refused reason => simp [heard, Notice.Frameless, Notice.frame?]
  | _ => simp [heard]

/-! ### Answers of the desk -/

/-- Whether a world is shown depends on the keys of the worlds only. -/
theorem world?_eq_none_iff :
    b.world? = none ↔ ∀ key, b.shown = some key → key ∉ b.desk.keys := by
  simp only [world?, Option.bind_eq_none_iff, Desk.keys, ← Worlds.get?_isSome,
    Option.not_isSome_iff_eq_none]

/-- What the desk answers is drawn, if it changes the world that is shown. -/
theorem Drawn.hears (hb : b.Drawn) {ready : Workbench} {e : Event} {q : Request Nat}
    (hq : b.request? e = some q) (hshown : ready.shown = b.shown)
    (h : Hears b ready (b.desk.perform q) b') : b'.Drawn := by
  have hshown' : b'.shown = b.shown := h.shown.trans hshown
  refine ⟨?_, ?_, ?_⟩
  · rw [h.desk]
    exact hb.steady.perform q
  · have hkeys : b'.desk.keys = b.desk.keys := by
      rw [h.desk]
      exact (Desk.perform_follows q).keys
    intro hworld
    rw [world?_eq_none_iff, hshown', hkeys, ← world?_eq_none_iff] at hworld
    rw [h.desk]
    refine Desk.Still.perform hb.steady (hb.vacant hworld) ?_
    cases hrequest : q.world? with
    | none => rfl
    | some key =>
      have habsent : b.desk.worlds.get? key = none := by
        simpa [world?, request?_world hq hrequest] using hworld
      simp [Desk.present, Option.filter, habsent]
  · intro d hmodel
    have hafter : (ready.answered (b.desk.perform q)).model? = some d := by
      rw [← hmodel, model?, model?, world?, world?, h.desk, h.shown]
      rfl
    obtain ⟨more, hnotices, hmore⟩ := h.notices
    rw [hnotices]
    cases hresult : (b.desk.perform q).answer.result? with
    | some r =>
      rw [Answer.result?_eq_some] at hresult
      have hnone : more = [] := by
        rcases hmore with hmore | ⟨-, hnot⟩
        · exact hmore
        · simp [hresult, Answer.result?] at hnot
      -- the picture that comes with the result is of the world after it
      rw [hresult, hnone, List.append_nil]
      exact lastFrame?_picture hafter b.notices (news_frameless r _)
    | none =>
      rcases hmore with rfl | ⟨rfl, -⟩
      · -- nothing was drawn, and the world that is shown is as it was
        have hworlds := hb.steady.perform_worlds (request?_ne_tick hq) fun r hr => by
          simp [hr, Answer.result?] at hresult
        have hsame : b'.model? = b.model? := by
          rw [model?, model?, world?, world?, h.desk, hshown']
          exact congrArg _ (congrArg _ (funext hworlds))
        rw [List.append_nil, lastFrame?_append (heard_frameless hresult)]
        exact hb.drawn d (hsame ▸ hmodel)
      · have hlast := lastFrame?_picture hafter
          (b.notices ++ (ready.answered (b.desk.perform q)).heard (b.desk.perform q).answer)
          (List.forall_mem_nil _)
        rwa [List.append_nil, List.append_assoc] at hlast

/-! ### Worlds that arrive -/

theorem arrived_drawn (hb : b.desk.Steady) {w : World} {name : LooseText}
    (hdesk : b'.desk = (b.arrived w).desk) (hshown : b'.shown = (b.arrived w).shown)
    (hnotices : b'.notices = b.notices ++ ((b.arrived w).picture ++ [.loaded name])) :
    b'.Drawn := by
  have hworld : b'.world? = (b.arrived w).world? := by rw [world?, world?, hdesk, hshown]
  have hsome : (b.arrived w).world? = some w := by simp [arrived, world?, Worlds.get?]
  refine ⟨?_, ?_, ?_⟩
  · rw [hdesk]
    exact arrived_steady hb w
  · simp [hworld, hsome]
  · intro d hmodel
    have harrived : (b.arrived w).model? = some d := by rw [← hmodel, model?, model?, hworld]
    rw [hnotices]
    exact lastFrame?_picture harrived b.notices (by simp [Notice.Frameless, Notice.frame?])

theorem deliver_drawn (hb : b.Drawn) (a : Arrival) : (b.deliver a).Drawn := by
  rcases deliver_spec (b := b) a with hsame | ⟨e, hfailed⟩ | ⟨w, harrived⟩
  · rwa [hsame]
  · rw [hfailed]
    exact hb.of_frameless rfl rfl rfl (by simp [Notice.Frameless, Notice.frame?])
  · rw [harrived]
    exact arrived_drawn hb.steady rfl rfl rfl

variable [Yaml.Reader]

/-- A desk that stands still may go on without a world until one arrives. -/
theorem load_drawn (hsteady : b.desk.Steady) (hstill : b.desk.Still) (files : Files) :
    (b.load files).2.Drawn := by
  rcases load_spec (b := b) files with ⟨waiting, hload⟩ | ⟨a, hload⟩
  · rw [hload]
    exact .of_vacant hsteady hstill rfl
  · rw [hload]
    exact deliver_drawn (b := { b with shown := none }) (.of_vacant hsteady hstill rfl) a

/-- The desk lets go what it holds before the world is given up. -/
theorem clear_drawn {q : Request Nat} (hb : b.Drawn) (hq : q = .stop ∨ q = .reset)
    (name : LooseText) (files : Files) :
    (load { (b.ask q).2 with worldName := name } files).2.Drawn := by
  have hask : Hears b b (b.desk.perform q) (b.ask q).2 := accept_hears b b rfl _
  refine load_drawn ?_ ?_ files
  · show (b.ask q).2.desk.Steady
    rw [hask.desk]
    exact hb.steady.perform q
  · show (b.ask q).2.desk.Still
    rw [hask.desk]
    rcases hq with rfl | rfl <;> exact ⟨rfl, rfl⟩

/-! ### Events -/

theorem Comes.drawn {e : Event} (hb : b.Drawn) (h : b.Comes e b') : b'.Drawn := by
  cases h with
  | kept hdesk hshown hnotices hns =>
    refine hb.of_frameless hdesk hshown hnotices fun n hn => ?_
    obtain ⟨error, rfl⟩ := hns n hn
    rfl
  | heard ready steps hq hready h =>
    have hafter := hb.hears hq hready h
    exact ⟨hafter.steady, hafter.vacant, hafter.drawn⟩
  | cleared hq name files => exact clear_drawn hb hq name files
  | delivered k a =>
    exact deliver_drawn (b := { b with arrivals := b.arrivals.eraseIdx k })
      ⟨hb.steady, hb.vacant, hb.drawn⟩ a

/-- Every event leaves what is drawn as what is there. -/
theorem happen_drawn (hb : b.Drawn) (e : Event) : (b.happen e).Drawn :=
  (happen_comes b e).drawn hb

theorem through_drawn (hb : b.Drawn) (events : List Event) : (b.through events).Drawn := by
  induction events generalizing b with
  | nil => exact hb
  | cons e events ih => exact ih (happen_drawn hb e)

end Workbench

/-! ### Workbenches from their beginning -/

theorem Console.state_eq_loading {c : Console} (h : c.state = .loading) :
    c.bench.world? = none := by
  unfold Console.state at h
  split at h
  · rename_i hnone
    exact Option.isNone_iff_eq_none.1 hnone
  · cases hphase : c.bench.desk.scheduler.phase <;> simp [hphase, Phase.consoleState] at h

namespace Workbench

section Opened

variable [Yaml.Reader] (config : Config) (library : Library) (loading : Loading) (source : String)
  (initialWorld : Option LooseText) (files : Files)

theorem opened_drawn : (opened config library loading source initialWorld files).2.Drawn := by
  refine load_drawn (.of_free rfl rfl ?_ []) ⟨rfl, rfl⟩ files
  exact nofun

/-- In every history of a workbench, however its worlds are loaded: while no world is there, the
desk stands still and holds no run, and so it is while a console says that it is loading; and
while a world is there, it was drawn last as it is. -/
theorem drawn_through (events : List Event) :
    let start := (opened config library loading source initialWorld files).2
    let b := start.through events
    (b.world? = none → b.desk.scheduler.phase = .idle ∧ b.desk.scheduler.held = none) ∧
    (∀ w, b.world? = some w → lastFrame? b.notices = some w.snapshot) ∧
    ∀ past : List ConsoleEvent, let c := (Console.opened start).through past
      c.state = .loading →
        c.bench.desk.scheduler.phase = .idle ∧ c.bench.desk.scheduler.held = none := by
  intro start b
  have hstart : start.Drawn := opened_drawn config library loading source initialWorld files
  have hb : b.Drawn := through_drawn hstart events
  refine ⟨hb.vacant, fun w hw => hb.drawn _ (by simp [model?, hw]), ?_⟩
  intro past c hloading
  have hpage : c.bench.newPage = (start.through (past.flatMap ConsoleEvent.events)).newPage :=
    Console.through_bench (Console.opened start) past
  have hdesk : c.bench.desk = (start.through (past.flatMap ConsoleEvent.events)).desk :=
    (congrArg desk hpage :)
  have hworld : (start.through (past.flatMap ConsoleEvent.events)).world? = none :=
    (congrArg world? hpage :).symm.trans (Console.state_eq_loading hloading)
  rw [hdesk]
  exact (through_drawn hstart _).vacant hworld

end Opened

open scoped Yaml.Plain

theorem threeCells_loading : (Console.opened threeCells).state = .loading := by
  rw [threeCells_eq]
  rfl

theorem threeCells_moved :
    (threeCells.through [.deliver 0, .play, .heartbeat]).world?.map (fun w => w.robot.cell) =
      some ⟨1, 0⟩ := by
  rw [threeCells_eq]
  cbv

/-- A world that has not arrived yet, and the same one after it has arrived and the robot has
moved. -/
theorem drawn_through_threeCells :
    let b := threeCells.through [.deliver 0, .play, .heartbeat]
    let c := Console.opened threeCells
    c.state = .loading ∧ c.bench.desk.scheduler.held = none ∧
      ∃ w, b.world? = some w ∧ w.robot.cell = ⟨1, 0⟩ ∧ lastFrame? b.notices = some w.snapshot := by
  intro b c
  obtain ⟨w, hw, hcell⟩ := Option.map_eq_some_iff.1 threeCells_moved
  obtain ⟨-, hdrawn, hconsole⟩ := drawn_through _ _ _ _ _ _ [.deliver 0, .play, .heartbeat]
  exact ⟨threeCells_loading, (hconsole [] threeCells_loading).2, w, hw, hcell, hdrawn w hw⟩

end Workbench

end GridRobot
