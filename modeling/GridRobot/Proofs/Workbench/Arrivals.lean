import Mathlib
import GridRobot.Proofs.Workbench.History
import GridRobot.Proofs.World.Library
import GridRobot.Yaml.Document

/-!
# Worlds that arrive in any order

Several worlds may be on their way to a workbench at the same time, also of one name, and they may
overtake each other. What is shown is still settled by the last name that was asked for: an arrival
of another name is put aside, and as long as none of this name has come, one is on its way or there
is no such world.

## Main definitions

* `Event.Loads` is an event that asks for a world or delivers one.
* `lastAsked` is the name that was asked for last.
* `Workbench.Awaits` is where a workbench stands between its worlds.

## Main statements

* `Workbench.happen_awaits`: an event keeps the workbench there.
* `Workbench.arrivals_converge`: once nothing is on its way, the world of the last name is shown.
-/

namespace GridRobot

/-- The name that an event asks for, if it asks for another world. -/
def Event.asked? : Event → Option LooseText
  | .changeWorld _ name => some name
  | _ => none

/-- The files in which an event looks for a world. -/
def Event.files? : Event → Option Files
  | .stop files => some files
  | .changeWorld files _ => some files
  | _ => none

/-- The event asks for a world, or delivers one. -/
def Event.Loads : Event → Prop
  | .stop _ => True
  | .changeWorld _ _ => True
  | .deliver _ => True
  | _ => False

/-- The name that was asked for last, when the first name and then some events did. -/
def lastAsked (first : LooseText) (events : List Event) : LooseText :=
  events.foldl (fun name e => e.asked?.getD name) first

namespace Workbench

variable {b : Workbench} {outcome : LooseText → Except LoadError Description}

theorem mem_eraseIdx_or {arrivals : List Arrival} {k : Nat} {a a' : Arrival}
    (ha : arrivals[k]? = some a) (h : a' ∈ arrivals) : a' = a ∨ a' ∈ arrivals.eraseIdx k := by
  obtain ⟨j, hj⟩ := List.mem_iff_getElem?.1 h
  by_cases hjk : j = k
  · subst hjk
    exact .inl (Option.some.inj (hj.symm.trans ha))
  · exact .inr (List.mem_eraseIdx_iff_getElem?.2 ⟨j, hjk, hj⟩)

/-! ### Between the worlds -/

/-- Where a workbench stands that was last asked for a name: what is on its way is what comes of the
names, a world that is shown is that of the name, and if none is shown, it is on its way or there is
none. -/
structure Awaits (library : Library) (outcome : LooseText → Except LoadError Description)
    (name : LooseText) (b : Workbench) : Prop where
  queued : b.loading = .queued
  searched : b.library = library
  named : b.worldName = name
  arrivals : ∀ a ∈ b.arrivals, a.outcome = outcome a.name
  shows : ∀ w, b.world? = some w → ∃ d, outcome name = .ok d ∧ World.ofDescription d = .ok w
  comes : b.world? = none → (∃ a ∈ b.arrivals, a.name = name) ∨ ∃ e, outcome name = .error e

variable {library : Library} {name : LooseText}

theorem load_awaits [Yaml.Reader] {files : Files} (hqueued : b.loading = .queued)
    (hlibrary : b.library = library) (harrivals : ∀ a ∈ b.arrivals, a.outcome = outcome a.name)
    (hfound : library.load files b.worldName = (outcome b.worldName).mapError .error) :
    (b.load files).2.Awaits library outcome b.worldName := by
  rw [load_found hqueued (hlibrary ▸ hfound)]
  refine ⟨hqueued, hlibrary, rfl, ?_, nofun,
    fun _ => .inl ⟨⟨b.worldName, outcome b.worldName⟩, ?_, rfl⟩⟩
  · intro a ha
    rcases List.mem_append.1 ha with hwaits | hnew
    · exact harrivals a hwaits
    · obtain rfl := List.mem_singleton.1 hnew
      rfl
  · exact List.mem_append_right _ (List.mem_singleton_self _)

theorem deliverAt_awaits (h : b.Awaits library outcome name)
    (hworld : ∀ d, outcome name = .ok d → ∃ w, World.ofDescription d = .ok w) (i : Int) :
    (b.deliverAt i).Awaits library outcome name := by
  obtain hsame | ⟨a, ns, ha, hdel, htold⟩ | ⟨a, d, w, ns, _, ha, hname, hok, hw, hdel⟩ :=
    deliverAt_cases b i
  · rwa [hsame]
  · have houtcome := h.arrivals a (List.mem_of_getElem? ha)
    rw [hdel]
    refine ⟨h.queued, h.searched, h.named,
      fun a' ha' => h.arrivals a' (List.mem_of_mem_eraseIdx ha'), h.shows, fun hnone => ?_⟩
    obtain ⟨a', hwaits, hname⟩ | herror := h.comes hnone
    · rcases mem_eraseIdx_or ha hwaits with rfl | hleft
      · -- the delivered one had the name, so it can only have been an error
        cases hout : outcome name with
        | error e => exact .inr ⟨e, rfl⟩
        | ok d =>
          obtain ⟨w, hw⟩ := hworld d hout
          rw [hname, hout] at houtcome
          exact absurd (hname.trans h.named.symm) (htold d w houtcome hw)
      · exact .inl ⟨a', hleft, hname⟩
    · exact .inr herror
  · have houtcome := h.arrivals a (List.mem_of_getElem? ha)
    rw [hok, hname, h.named] at houtcome
    have hshown : (b.deliverAt i).world? = some w := by
      simp [hdel, world?, Worlds.get?]
    rw [hdel] at hshown ⊢
    refine ⟨h.queued, h.searched, h.named,
      fun a' ha' => h.arrivals a' (List.mem_of_mem_eraseIdx ha'), fun w' hw' => ?_, fun hnone => ?_⟩
    · obtain rfl := Option.some.inj (hshown.symm.trans hw')
      exact ⟨d, houtcome.symm, hw⟩
    · rw [hshown] at hnone
      cases hnone

section

variable [Yaml.Reader]

/-- An event that asks for a world or delivers one keeps the workbench between its worlds. -/
theorem happen_awaits {e : Event} (h : b.Awaits library outcome name) (hloads : e.Loads)
    (hfound : ∀ files ∈ e.files?,
      library.load files (e.asked?.getD name) = (outcome (e.asked?.getD name)).mapError .error)
    (hworld : ∀ d, outcome name = .ok d → ∃ w, World.ofDescription d = .ok w) :
    (b.happen e).Awaits library outcome (e.asked?.getD name) := by
  cases e with
  | stop files =>
    obtain ⟨ns, n, hask⟩ := accept_eq b (b.desk.perform .stop)
    have hstop := hfound files rfl
    show ((b.ask .stop).2.load files).2.Awaits library outcome name
    rw [ask, hask]
    simp only [Event.asked?, Option.getD_none, ← h.named] at hstop ⊢
    exact load_awaits (b := { b with desk := _, notices := ns, steps := n }) h.queued h.searched
      h.arrivals hstop
  | changeWorld files asked =>
    obtain ⟨ns, n, hask⟩ := accept_eq b (b.desk.perform .reset)
    show (load { (b.ask .reset).2 with worldName := asked } files).2.Awaits library outcome asked
    rw [ask, hask]
    exact load_awaits
      (b := { b with desk := _, notices := ns, steps := n, worldName := asked }) h.queued h.searched
      h.arrivals (hfound files rfl)
  | deliver i => exact deliverAt_awaits h hworld i
  | _ => cases hloads

theorem through_awaits {names : List LooseText}
    (hworld : ∀ name ∈ names, ∀ d, outcome name = .ok d → ∃ w, World.ofDescription d = .ok w)
    {events : List Event} (h : b.Awaits library outcome name) (hname : name ∈ names)
    (hloads : ∀ e ∈ events, e.Loads) (hasked : ∀ e ∈ events, ∀ asked ∈ e.asked?, asked ∈ names)
    (hfound : ∀ e ∈ events, ∀ files ∈ e.files?, ∀ asked ∈ names,
      library.load files asked = (outcome asked).mapError .error) :
    (b.through events).Awaits library outcome (lastAsked name events) ∧
      lastAsked name events ∈ names := by
  induction events generalizing b name with
  | nil => exact ⟨h, hname⟩
  | cons e events ih =>
    have hnext : e.asked?.getD name ∈ names := by
      cases hasks : e.asked? with
      | none => exact hname
      | some asked => exact hasked e List.mem_cons_self asked hasks
    have hstep : (b.happen e).Awaits library outcome (e.asked?.getD name) :=
      happen_awaits h (hloads e List.mem_cons_self)
        (fun files hfiles => hfound e List.mem_cons_self files hfiles _ hnext) (hworld name hname)
    exact ih hstep hnext (fun e he => hloads e (List.mem_cons_of_mem _ he))
      (fun e he => hasked e (List.mem_cons_of_mem _ he))
      (fun e he => hfound e (List.mem_cons_of_mem _ he))

/-! ### Whole histories -/

/-- The outcomes are those of a library, in the files of the first request and of all events, for
all names that these ask for. -/
def Settled (library : Library) (outcome : LooseText → Except LoadError Description)
    (first : LooseText) (files : Files) (events : List Event) : Prop :=
  ∀ place ∈ files :: events.filterMap Event.files?,
    ∀ name ∈ first :: events.filterMap Event.asked?,
      library.load place name = (outcome name).mapError .error

theorem Settled.of_prefix {first : LooseText} {files : Files} {past events : List Event}
    (h : Settled library outcome first files events) (hpast : past <+: events) :
    Settled library outcome first files past := by
  intro place hplace name hname
  refine h place ?_ name ?_
  · exact List.cons_subset_cons _ (hpast.filterMap _).subset hplace
  · exact List.cons_subset_cons _ (hpast.filterMap _).subset hname

end

section Opened

variable {config : Config} {source : String} {initialWorld : Option LooseText} {files : Files}
  {events : List Event}

theorem opened_awaits [Yaml.Reader] (hloads : ∀ e ∈ events, e.Loads)
    (hsettled : Settled library outcome (firstName config initialWorld) files events) :
    ((opened config library .queued source initialWorld files).2.through events).Awaits library
      outcome (lastAsked (firstName config initialWorld) events) := by
  have hfirst := hsettled files List.mem_cons_self
  have hworld : ∀ name ∈ firstName config initialWorld :: events.filterMap Event.asked?,
      ∀ d, outcome name = .ok d → ∃ w, World.ofDescription d = .ok w := by
    intro name hname d hok
    have hload := hfirst name hname
    rw [hok] at hload
    exact Library.load_world hload
  have hopened : (opened config library .queued source initialWorld files).2.Awaits library outcome
      (firstName config initialWorld) :=
    load_awaits (b := bare config library .queued source initialWorld) rfl rfl nofun
      (hfirst _ List.mem_cons_self)
  refine (through_awaits hworld hopened List.mem_cons_self hloads ?_ ?_).1
  · intro e he asked hasks
    exact List.mem_cons_of_mem _ (List.mem_filterMap.2 ⟨e, he, hasks⟩)
  · intro e he place hplace
    exact hsettled place (List.mem_cons_of_mem _ (List.mem_filterMap.2 ⟨e, he, hplace⟩))

/-- Where nothing is on its way, the world of the name is shown, or none if there is none. -/
theorem Awaits.world?_eq (h : b.Awaits library outcome name) (hnone : b.arrivals = []) :
    (∀ d, outcome name = .ok d → ∃ w, World.ofDescription d = .ok w ∧ b.world? = some w) ∧
      ∀ e, outcome name = .error e → b.world? = none := by
  cases hworld : b.world? with
  | some w =>
    obtain ⟨d, hok, hw⟩ := h.shows w hworld
    rw [hok]
    refine ⟨?_, nofun⟩
    rintro _ ⟨⟩
    exact ⟨w, hw, rfl⟩
  | none =>
    obtain ⟨a, ha, _⟩ | ⟨e, herror⟩ := h.comes hworld
    · rw [hnone] at ha
      cases ha
    · rw [herror]
      exact ⟨nofun, fun _ _ => rfl⟩

/-- A delivery changes which world is shown only if it delivers one of the present name. -/
theorem deliverAt_shown {i : Int} (h : (b.deliverAt i).shown ≠ b.shown) :
    ∃ a, b.arrivals[i.toNat]? = some a ∧ a.name = b.worldName := by
  obtain hsame | ⟨a, ns, _, hdel, _⟩ | ⟨a, _, _, _, _, ha, hname, _⟩ := deliverAt_cases b i
  · rw [hsame] at h
    exact absurd rfl h
  · rw [hdel] at h
    exact absurd rfl h
  · exact ⟨a, ha, hname⟩

/-- Worlds are asked for and arrive in any order, and for each name there is a description or a
reason why there is none. Once nothing is on its way, the world that was asked for last is shown, or
none if there is none; and at no time is a world of another name shown, or brought by an arrival. -/
theorem arrivals_converge [Yaml.Reader] (hloads : ∀ e ∈ events, e.Loads)
    (hsettled : Settled library outcome (firstName config initialWorld) files events) :
    let start := (opened config library .queued source initialWorld files).2
    let last := lastAsked (firstName config initialWorld)
    ((start.through events).arrivals = [] →
      (∀ d, outcome (last events) = .ok d →
        ∃ w, World.ofDescription d = .ok w ∧ (start.through events).world? = some w) ∧
      ∀ e, outcome (last events) = .error e → (start.through events).world? = none) ∧
    ∀ past, past <+: events →
      (∀ w, (start.through past).world? = some w →
        ∃ d, outcome (last past) = .ok d ∧ World.ofDescription d = .ok w) ∧
      ∀ i, ((start.through past).happen (.deliver i)).shown ≠ (start.through past).shown →
        ∃ a, (start.through past).arrivals[i.toNat]? = some a ∧ a.name = last past := by
  intro start last
  refine ⟨(opened_awaits hloads hsettled).world?_eq, ?_⟩
  intro past hpast
  have h : (start.through past).Awaits library outcome (last past) :=
    opened_awaits (fun e he => hloads e (hpast.subset he)) (hsettled.of_prefix hpast)
  refine ⟨h.shows, fun i hi => ?_⟩
  obtain ⟨a, ha, hname⟩ := deliverAt_shown hi
  exact ⟨a, ha, hname.trans h.named⟩

end Opened

/-! ### A world that is overtaken -/

/-- A configuration with the name of a world which there is not. -/
def lackingConfig : Config :=
  ⟨⟨1, 1, 1⟩, ⟨1, 1, 1⟩, ⟨"a", ⟨.here, []⟩, none⟩, ⟨1, 1⟩⟩

open scoped Yaml.Plain

/-- A workbench that has asked for that world. -/
def lacking : Workbench :=
  (opened lackingConfig ⟨none, none⟩ .queued "" none (.empty [])).2

/-- Another world is asked for, and comes before it is known that there is no first one. -/
def overtaking : List Event :=
  [.changeWorld (.empty []) "1x1.w", .deliver 1, .deliver 0]

/-- What comes of the names that are asked for. -/
def overtakingOutcome (name : LooseText) : Except LoadError Description :=
  if name = "a" then .error (.notFound "a") else .ok ⟨1, 1, .home, [], [], none⟩

theorem found_lacking : Library.load ⟨none, none⟩ (.empty []) "a" =
    (overtakingOutcome "a").mapError .error := by
  decide +kernel

theorem found_cell : Library.load ⟨none, none⟩ (.empty []) "1x1.w" =
    (overtakingOutcome "1x1.w").mapError .error := by
  decide +kernel

/-- The world of the configuration has been looked up, and it is not there. -/
theorem lacking_eq : lacking = { bare lackingConfig ⟨none, none⟩ .queued "" none with
    arrivals := [⟨"a", .error (.notFound "a")⟩] } :=
  opened_found found_lacking

theorem settled_overtaking :
    Settled ⟨none, none⟩ overtakingOutcome (firstName lackingConfig none) (.empty [])
      overtaking := by
  have hfirst : firstName lackingConfig none = "a" := rfl
  simp [Settled, overtaking, Event.files?, Event.asked?, hfirst, found_lacking, found_cell]

theorem arrivals_overtaking : (lacking.through overtaking).arrivals = [] := by
  rw [overtaking, lacking_eq, through_cons, happen, changeWorld_found rfl found_cell]
  cbv

theorem arrivals_converge_overtaking :
    (∀ e ∈ overtaking, e.Loads) ∧
      Settled ⟨none, none⟩ overtakingOutcome (firstName lackingConfig none) (.empty [])
        overtaking ∧
      (lacking.through overtaking).arrivals = [] ∧
      ∃ w, World.ofDescription ⟨1, 1, .home, [], [], none⟩ = .ok w ∧
        (lacking.through overtaking).world? = some w := by
  have hloads : ∀ e ∈ overtaking, e.Loads := by simp [overtaking, Event.Loads]
  have hshown : ∀ d, overtakingOutcome "1x1.w" = .ok d → ∃ w, World.ofDescription d = .ok w ∧
      (lacking.through overtaking).world? = some w :=
    ((arrivals_converge hloads settled_overtaking).1 arrivals_overtaking).1
  exact ⟨hloads, settled_overtaking, arrivals_overtaking, hshown _ rfl⟩

end Workbench

end GridRobot
