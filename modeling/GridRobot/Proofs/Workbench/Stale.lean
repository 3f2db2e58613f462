import GridRobot.Proofs.Workbench.Arrivals
import GridRobot.Proofs.Workbench.Page

/-!
# Arrivals that come too late

An arrival of a name that is no longer asked for is stale. A stale world is put aside, and whatever
happens later, the workbench is the one to which that world never came. A stale failure is told all
the same, and a console then shows it in place of its message.

## Main definitions

* `Workbench.Stale` says that an arrival waits that is stale.
* `Workbench.losing` is a workbench to which an arrival is lost, and `around` the events there as
  they are with that arrival still waiting.

## Main statements

* `Workbench.deliverAt_stale`: what the delivery of a stale arrival comes to.
* `Workbench.through_losing`: an arrival that is lost makes no difference to anything else.
* `Workbench.stale_arrival_silent_iff`: a stale arrival passes without a trace exactly if it is a world.
-/

namespace GridRobot

/-- What is told of an arrival that is put aside: nothing, or why there is no world. -/
def Arrival.complaint (a : Arrival) : List Notice :=
  match a.outcome with
  | .ok _ => []
  | .error e => [.worldError a.name e]

theorem Arrival.complaint_eq_nil {a : Arrival} : a.complaint = [] ↔ ∃ d, a.outcome = .ok d := by
  unfold complaint
  cases a.outcome <;> simp

/-- The event as it is where one more arrival waits, in the given place, and goes on waiting. -/
def Event.around (k : Nat) : Event → Event
  | .deliver i => .deliver (if i < k then i else i + 1)
  | e => e

/-- The place of that arrival after the event. -/
def Event.place (k : Nat) : Event → Nat
  | .deliver i => if 0 ≤ i ∧ i < k then k - 1 else k
  | _ => k

/-- The events as they are where one more arrival waits, in the given place, and goes on waiting. -/
def around (k : Nat) : List Event → List Event
  | [] => []
  | e :: events => e.around k :: around (e.place k) events

/-- The place of that arrival after some events. -/
def place (k : Nat) (events : List Event) : Nat :=
  events.foldl (fun k e => e.place k) k

namespace Workbench

variable {b : Workbench} {i : Int} {a : Arrival} {k : Nat}

/-- An arrival waits under a number, and its name is not the one that was last asked for. -/
structure Stale (b : Workbench) (i : Int) (a : Arrival) : Prop where
  nonneg : 0 ≤ i
  waits : b.arrivals[i.toNat]? = some a
  other : a.name ≠ b.worldName

/-- The workbench to which an arrival is lost, by its place. -/
def losing (k : Nat) (b : Workbench) : Workbench :=
  { b with arrivals := b.arrivals.eraseIdx k }

/-- A stale arrival is put aside, and if it is none of a world, this is told. -/
theorem deliverAt_stale (h : b.Stale i a) :
    b.deliverAt i = { b.losing i.toNat with notices := b.notices ++ a.complaint } := by
  have hi : ¬ i < 0 := Int.not_lt.2 h.nonneg
  simp only [deliverAt, hi, if_false, h.waits, deliver, Arrival.complaint, losing]
  cases a.outcome with
  | error e => rfl
  | ok d => simp [h.other]

/-! ### Arrivals that are lost -/

/-- Of two things that are taken off a list, either may be taken first. -/
theorem eraseIdx_eraseIdx {α : Type} {xs : List α} {j k : Nat} (h : j < k) :
    (xs.eraseIdx k).eraseIdx j = (xs.eraseIdx j).eraseIdx (k - 1) := by
  apply List.ext_getElem?
  grind

theorem deliver_kept (a : Arrival) :
    (b.deliver a).arrivals = b.arrivals ∧ (b.deliver a).worldName = b.worldName := by
  unfold deliver
  cases a.outcome with
  | error e => exact ⟨rfl, rfl⟩
  | ok d =>
    by_cases hname : a.name = b.worldName
    · simp only [hname, ne_eq, not_true, if_false]
      cases World.ofDescription d with
      | error e => exact ⟨rfl, rfl⟩
      | ok w =>
        obtain ⟨ns, hinstall⟩ := install_eq b b.worldName w
        simp only [hinstall, and_self]
    · simp only [hname, ne_eq, not_false_eq_true, if_true, and_self]

theorem deliverAt_natCast (n : Nat) : b.deliverAt n =
    match b.arrivals[n]? with
    | none => b
    | some a => deliver { b with arrivals := b.arrivals.eraseIdx n } a := by
  have hn : ¬ (n : Int) < 0 := by omega
  cases ha : b.arrivals[n]? <;> simp only [deliverAt, hn, if_false, Int.toNat_natCast, ha]

theorem deliverAt_kept (n : Nat) : (b.deliverAt n).arrivals = b.arrivals.eraseIdx n ∧
    (b.deliverAt n).worldName = b.worldName := by
  rw [deliverAt_natCast]
  cases ha : b.arrivals[n]? with
  | none => exact ⟨(List.eraseIdx_of_length_le (List.getElem?_eq_none_iff.1 ha)).symm, rfl⟩
  | some a => exact deliver_kept a

/-- Where an arrival is lost, another one is delivered as it is where the first goes on waiting in
another place. -/
theorem deliverAt_losing {j n k' : Nat} (hget : (b.arrivals.eraseIdx k)[n]? = b.arrivals[j]?)
    (herase : (b.arrivals.eraseIdx k).eraseIdx n = (b.arrivals.eraseIdx j).eraseIdx k')
    (hj : b.arrivals[j]? = none → k' = k) :
    (b.losing k).deliverAt n = (b.deliverAt j).losing k' := by
  have hlost : (b.losing k).arrivals = b.arrivals.eraseIdx k := rfl
  rw [deliverAt_natCast, deliverAt_natCast, hlost, hget, herase]
  cases ha : b.arrivals[j]? with
  | none => rw [hj ha]
  | some a =>
    exact deliver_refiled [] (·.eraseIdx k') { b with arrivals := b.arrivals.eraseIdx j } a

/-- An event that delivers nothing adds to what is on its way, whatever that is. -/
theorem happen_arrivals [Yaml.Reader] {e : Event} (he : ∀ i, e ≠ .deliver i) :
    (b.happen e).arrivals = b.arrivals ++ (happen { b with arrivals := [] } e).arrivals := by
  have h := congrArg arrivals
    (happen_refiled [] (b.arrivals ++ ·) { b with arrivals := [] } (fun a => by simp) he)
  have hsame : refiled [] (b.arrivals ++ ·) { b with arrivals := [] } = b := by simp [refiled]
  rw [hsame] at h
  exact h

/-- Whether an arrival waits for ever or is lost makes no difference to an event. -/
theorem happen_losing [Yaml.Reader] {e : Event} (hk : k < b.arrivals.length) :
    (b.losing k).happen e = (b.happen (e.around k)).losing (e.place k) ∧
      e.place k < (b.happen (e.around k)).arrivals.length := by
  by_cases he : ∃ i, e = .deliver i
  · obtain ⟨i, rfl⟩ := he
    simp only [happen, Event.around, Event.place]
    rcases Int.lt_or_le i 0 with hneg | hnonneg
    · -- nothing is delivered by a negative number
      have hlt : i < k := by omega
      simp [hlt, hneg, deliverAt, Int.not_le.2 hneg, hk]
    · obtain ⟨n, rfl⟩ := Int.eq_ofNat_of_zero_le hnonneg
      -- a delivery before the lost arrival moves its place, and one after it is moved by it
      rcases Nat.lt_or_ge n k with hlt | hge
      · simp only [Int.ofNat_lt, hlt, hnonneg, and_self, if_true]
        refine ⟨deliverAt_losing (List.getElem?_eraseIdx_of_lt hlt) (eraseIdx_eraseIdx hlt) ?_, ?_⟩
        · intro hnone
          have hlength := List.getElem?_eq_none_iff.1 hnone
          omega
        · rw [(deliverAt_kept n).1, List.length_eraseIdx_of_lt (by omega)]
          omega
      · have hnot : ¬ n < k := Nat.not_lt.2 hge
        simp only [Int.ofNat_lt, hnot, and_false, if_false]
        refine ⟨deliverAt_losing (j := n + 1) (List.getElem?_eraseIdx_of_ge hge)
          (eraseIdx_eraseIdx (k := n + 1) (by omega)).symm (fun _ => rfl), ?_⟩
        rw [show (n : Int) + 1 = (n + 1 : Nat) from rfl, (deliverAt_kept _).1,
          List.length_eraseIdx]
        split <;> omega
  · have hnot : ∀ i, e ≠ .deliver i := fun i hi => he ⟨i, hi⟩
    have hsame : e.around k = e ∧ e.place k = k := by
      cases e with
      | deliver i => exact absurd rfl (hnot i)
      | _ => exact ⟨rfl, rfl⟩
    rw [hsame.1, hsame.2]
    refine ⟨?_, ?_⟩
    · exact happen_refiled [] (·.eraseIdx k) b
        (fun a => List.eraseIdx_append_of_lt_length hk [a]) hnot
    · rw [happen_arrivals hnot, List.length_append]
      omega

theorem through_losing [Yaml.Reader] (hk : k < b.arrivals.length) (events : List Event) :
    (b.losing k).through events = (b.through (around k events)).losing (place k events) := by
  induction events generalizing b k with
  | nil => rfl
  | cons e events ih =>
    obtain ⟨hlosing, hplace⟩ := happen_losing (e := e) hk
    rw [through_cons, hlosing, ih hplace]
    rfl

/-! ### Stale arrivals -/

theorem Stale.of_newPage {b' : Workbench} (h : b.Stale i a) (hpage : b'.newPage = b.newPage) :
    b'.Stale i a where
  nonneg := h.nonneg
  waits := (congrArg (·.arrivals[i.toNat]?) hpage).trans h.waits
  other := fun hname => h.other (hname.trans (congrArg (fun b => b.worldName) hpage))

theorem told_stale [Yaml.Reader] (h : b.Stale i a) : b.told (.deliver i) = a.complaint :=
  congrArg notices (deliverAt_stale (b := b.newPage) ⟨h.nonneg, h.waits, h.other⟩)

/-- A stale world that was put aside is missed by nothing that happens later. -/
theorem through_stale [Yaml.Reader] (h : b.Stale i a) (hworld : a.complaint = [])
    (later : List Event) :
    (b.happen (.deliver i)).through later =
      (b.through (around i.toNat later)).losing (place i.toNat later) := by
  have hplace : i.toNat < b.arrivals.length := (List.getElem?_eq_some_iff.1 h.waits).1
  have hlost : b.happen (.deliver i) = b.losing i.toNat := by
    rw [happen, deliverAt_stale h, hworld, List.append_nil]
    rfl
  rw [hlost, through_losing hplace]

end Workbench

/-- A console at which a stale arrival is delivered shows its complaint, if it has one. -/
theorem Console.deliverAt_stale {c : Console} {i : Int} {a : Arrival} (h : c.bench.Stale i a) :
    c.deliverAt i = ⟨{ c.bench.losing i.toNat with notices := a.complaint },
      match a.outcome with
      | .ok _ => c.message
      | .error e => e.message⟩ := by
  unfold deliverAt
  rw [Workbench.deliverAt_stale (b := c.bench.newPage) ⟨h.nonneg, h.waits, h.other⟩]
  unfold follow Arrival.complaint
  cases a.outcome <;> rfl

namespace Workbench

/-- A stale arrival is delivered at any time to a workbench whose worlds arrive later, or to its
console. All that comes of it is its complaint: it passes in silence exactly if it is a world, and
then nothing that happens later is different either. -/
theorem stale_arrival_silent_iff [Yaml.Reader] (config : Config) (library : Library)
    (source : String) (initialWorld : Option LooseText) (files : Files) :
    let start := (opened config library .queued source initialWorld files).2
    (∀ (events : List Event) (i : Int) (a : Arrival), (start.through events).Stale i a →
      let b := start.through events
      b.happen (.deliver i) = { b.losing i.toNat with notices := b.notices ++ a.complaint } ∧
      (b.told (.deliver i) = [] ↔ ∃ d, a.outcome = .ok d) ∧
      ((∃ d, a.outcome = .ok d) → ∀ later, (b.happen (.deliver i)).through later =
        (b.through (around i.toNat later)).losing (place i.toNat later))) ∧
    ∀ (events : List ConsoleEvent) (i : Int) (a : Arrival),
      ((Console.opened start).through events).bench.Stale i a →
      let c := (Console.opened start).through events
      (c.happen (.deliver i)).state = c.state ∧
      (c.happen (.deliver i)).bench = { c.bench.losing i.toNat with notices := a.complaint } ∧
      (c.happen (.deliver i)).message =
        match a.outcome with
        | .ok _ => c.message
        | .error e => e.message := by
  intro start
  refine ⟨?_, ?_⟩
  · intro events i a h b
    refine ⟨deliverAt_stale h, ?_, ?_⟩
    · rw [told_stale h, Arrival.complaint_eq_nil]
    · intro hworld
      exact through_stale h (Arrival.complaint_eq_nil.2 hworld)
  · intro events i a h c
    rw [Console.happen, Console.deliverAt_stale h]
    exact ⟨rfl, rfl, rfl⟩

theorem happen_changeWorld [Yaml.Reader] {b : Workbench} (hqueued : b.loading = .queued)
    {files : Files} {name : LooseText} {found : Except LoadError Description}
    (h : b.library.load files name = found.mapError .error) :
    (b.happen (.changeWorld files name)).arrivals = b.arrivals ++ [⟨name, found⟩] ∧
      (b.happen (.changeWorld files name)).worldName = name := by
  rw [happen, changeWorld_found hqueued h]
  exact ⟨rfl, rfl⟩

open scoped Yaml.Plain

theorem lacking_arrivals : lacking.arrivals = [⟨"a", .error (.notFound "a")⟩] :=
  congrArg arrivals lacking_eq

/-- Another world is asked for, and then the first one again. -/
def askedAgain : List ConsoleEvent :=
  [.changeWorld (.empty []) "1x1.w", .changeWorld (.empty []) "a"]

theorem stale_askedAgain : (lacking.through (askedAgain.flatMap ConsoleEvent.events)).Stale 1
    ⟨"1x1.w", .ok ⟨1, 1, .home, [], [], none⟩⟩ := by
  obtain ⟨hother, -⟩ := happen_changeWorld (b := lacking) rfl found_cell
  obtain ⟨hagain, hname⟩ := happen_changeWorld
    (b := lacking.happen (.changeWorld (.empty []) "1x1.w")) rfl found_lacking
  rw [hother, lacking_arrivals] at hagain
  refine ⟨by decide, ?_, fun h => absurd (h.trans hname) (by decide)⟩
  exact congrArg (·[1]?) hagain

/-- A world comes after another one was asked for. -/
theorem stale_arrival_silent_iff_askedAgain :
    let b := lacking.through (askedAgain.flatMap ConsoleEvent.events)
    let c := (Console.opened lacking).through askedAgain
    let a : Arrival := ⟨"1x1.w", .ok ⟨1, 1, .home, [], [], none⟩⟩
    b.Stale 1 a ∧ b.told (.deliver 1) = [] ∧
      (∀ later, (b.happen (.deliver 1)).through later =
        (b.through (around 1 later)).losing (place 1 later)) ∧
      c.bench.Stale 1 a ∧ (c.happen (.deliver 1)).message = c.message := by
  intro b c a
  have hconsole : c.bench.Stale 1 a := stale_askedAgain.of_newPage (Console.through_bench _ _)
  obtain ⟨hbench, hmessage⟩ :=
    stale_arrival_silent_iff lackingConfig ⟨none, none⟩ "" none (.empty [])
  obtain ⟨-, hsilent, hlater⟩ := hbench _ 1 a stale_askedAgain
  exact ⟨stale_askedAgain, hsilent.2 ⟨_, rfl⟩, hlater ⟨_, rfl⟩, hconsole,
    (hmessage _ 1 a hconsole).2.2⟩

/-- Another world is asked for, and it comes before it is known that there is no first one. -/
def overtaken : List ConsoleEvent :=
  [.changeWorld (.empty []) "1x1.w", .deliver 1]

theorem stale_overtaken : (lacking.through (overtaken.flatMap ConsoleEvent.events)).Stale 0
    ⟨"a", .error (.notFound "a")⟩ := by
  obtain ⟨harrivals, hname⟩ := happen_changeWorld (b := lacking) rfl found_cell
  obtain ⟨herase, hsame⟩ :=
    deliverAt_kept (b := lacking.happen (.changeWorld (.empty []) "1x1.w")) 1
  rw [harrivals, lacking_arrivals] at herase
  refine ⟨by decide, ?_, fun h => absurd (h.trans (hsame.trans hname)) (by decide)⟩
  exact congrArg (·[0]?) herase

theorem message_overtaken : ((Console.opened lacking).through overtaken).message =
    "Loaded 1x1.w" := by
  rw [overtaken, lacking_eq, Console.through, List.foldl_cons, Console.happen, Console.changeWorld,
    changeWorld_found rfl found_cell]
  cbv

/-- The world that was asked for is shown, and then it is told that there is no world of the name
before it. -/
theorem stale_failure_told :
    let b := lacking.through (overtaken.flatMap ConsoleEvent.events)
    let c := (Console.opened lacking).through overtaken
    let a : Arrival := ⟨"a", .error (.notFound "a")⟩
    b.Stale 0 a ∧ b.told (.deliver 0) = [.worldError "a" (.notFound "a")] ∧
      c.bench.Stale 0 a ∧ c.message = "Loaded 1x1.w" ∧
      (c.happen (.deliver 0)).message = "Could not load world 'a': world not found" := by
  intro b c a
  have hconsole : c.bench.Stale 0 a := stale_overtaken.of_newPage (Console.through_bench _ _)
  refine ⟨stale_overtaken, told_stale stale_overtaken, hconsole, message_overtaken, ?_⟩
  rw [Console.happen, Console.deliverAt_stale hconsole]
  show (LoadError.notFound "a").message = _
  cbv

end Workbench

end GridRobot
