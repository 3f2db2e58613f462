import GridRobot.Proofs.Run.Attempts
import GridRobot.Proofs.World.Ordered

/-!
# Beepers are conserved

Beepers move between the bag and the cell of the robot, and nowhere else. Here the books are kept for
all that is tried in a world: by programs, step after step, by hand, and by both of them in turn, with
success or without.

Every trial goes on record with the world in which it is made, so the record tells on which cell the
robot stood. What one trial does to the books is read off the action that succeeded, and a record is
balanced if its first part and the rest are.

## Main definitions

* `World.total` is the number of beepers on the grid.
* `World.History` says what has been tried in a world and what it has become.
* `World.Balanced` says that the beepers on every cell, on the grid and in the bag are what the record
  makes of them.

## Main statements

* `World.perform_balanced`, `World.records_balanced`: an action, and a step of a run, keep the books.
* `World.History.balanced`: so does all that is tried in a world.
* `World.History.beepers_conserved`: a finite bag and the grid hold as many beepers as ever.
-/

namespace GridRobot

/-- An attempt, and the world in which it is made. -/
structure Trial where
  world : World
  attempt : Attempt

namespace Trial

/-- Has the trial succeeded? -/
def succeeds (t : Trial) : Bool :=
  t.attempt.outcome.toBool

/-- Is this a trial of an action that has succeeded? -/
def does (a : Action) (t : Trial) : Bool :=
  t.attempt.action = a && t.succeeds

/-- Is the robot on a cell when the trial is made? -/
def madeOn (c : Cell) (t : Trial) : Bool :=
  t.world.robot.cell = c

/-- How often an action has succeeded. -/
def times (a : Action) (trail : List Trial) : Nat :=
  trail.countP (does a)

/-- How often an action has succeeded on a cell. -/
def timesOn (c : Cell) (a : Action) (trail : List Trial) : Nat :=
  trail.countP fun t => t.does a && t.madeOn c

variable {a : Action} {c : Cell} {trail earlier later : List Trial}

@[simp]
theorem times_append : times a (earlier ++ later) = times a earlier + times a later :=
  List.countP_append

@[simp]
theorem timesOn_append : timesOn c a (earlier ++ later) = timesOn c a earlier + timesOn c a later :=
  List.countP_append

theorem times_ok {w after : World} {b : Action} :
    times a [⟨w, b, .ok after⟩] = if b = a then 1 else 0 := by
  simp [times, does, succeeds, Except.toBool, List.countP_singleton]

theorem timesOn_ok {w after : World} {b : Action} :
    timesOn c a [⟨w, b, .ok after⟩] = if b = a ∧ w.robot.cell = c then 1 else 0 := by
  simp [timesOn, does, succeeds, madeOn, Except.toBool, List.countP_singleton]

theorem times_eq_zero (h : ∀ t ∈ trail, t.does a = false) : times a trail = 0 :=
  List.countP_eq_zero.2 fun t ht => by simp [h t ht]

theorem timesOn_eq_zero (h : ∀ t ∈ trail, t.madeOn c = true → t.does a = false) :
    timesOn c a trail = 0 := by
  refine List.countP_eq_zero.2 fun t ht => ?_
  by_cases hc : t.madeOn c = true
  · simp [h t ht hc]
  · simp [hc]

end Trial

/-- A run that has come to an action tries it in its next step. -/
theorem Run.tries_action {limits : Limits} {r : Run} {top : Frame} {below : List Frame} {a : Action}
    {line : Int} {rest : List Statement} (w : World) (hrun : r.status = .running)
    (hstack : r.stack = top :: below) (hrest : top.rest = .action a line :: rest)
    (hturns : 0 < limits.freeTurns) : r.Tries limits w [⟨a, w.perform a⟩] := by
  have hattempt : (attempt? w r.stack).toList = [⟨a, w.perform a⟩] := by
    simp [hstack, attempt?, hrest]
  obtain ⟨left, hleft⟩ : ∃ left, limits.freeTurns = left + 1 := ⟨limits.freeTurns - 1, by omega⟩
  rw [Run.Tries, if_neg (by simp [terminated, hrun]), hleft, ← hattempt]
  rw [hstack]
  cases ha : w.perform a with
  | ok after => exact .halt (.acted hrest ha)
  | error kind => exact .halt (.failed hrest ha)

namespace World

variable {w mid after : World} {trail later : List Trial} {c : Cell} {n : Nat}
  {entries : List (Cell × Nat)}

/-! ### How many beepers there are -/

/-- Number of beepers in some entries. -/
def totalIn (entries : List (Cell × Nat)) : Nat :=
  (entries.map Prod.snd).sum

/-- Number of beepers on the grid. -/
def total (w : World) : Nat :=
  totalIn w.beepers

theorem totalIn_addCount : totalIn (addCount c n entries) = totalIn entries + n := by
  induction entries with
  | nil => simp [addCount, totalIn]
  | cons first rest ih =>
    obtain ⟨d, m⟩ := first
    simp only [totalIn, List.map_cons, List.sum_cons] at ih ⊢
    rw [addCount]
    split
    · simp only [List.map_cons, List.sum_cons]
      omega
    · split
      · simp only [List.map_cons, List.sum_cons]
        omega
      · simp only [List.map_cons, List.sum_cons, ih]
        omega

theorem totalIn_removeOne (h : 0 < countIn entries c) :
    totalIn (removeOne c entries) + 1 = totalIn entries := by
  induction entries with
  | nil => simp [countIn] at h
  | cons first rest ih =>
    obtain ⟨d, m⟩ := first
    simp only [totalIn, List.map_cons, List.sum_cons] at ih ⊢
    rw [removeOne]
    by_cases hcd : c = d
    · subst hcd
      have hm : 0 < m := by simpa [countIn] using h
      rw [if_pos rfl]
      split
      · omega
      · simp only [List.map_cons, List.sum_cons]
        omega
    · have hrest : 0 < countIn rest c := by simpa [countIn, Ne.symm hcd] using h
      rw [if_neg hcd, List.map_cons, List.sum_cons, ← ih hrest]
      omega

/-! ### The books -/

/-- The books of a world that has become another one: what has been put down on a cell is on it, and
what has been picked up is not. A finite bag has lost the one and got the other. -/
structure Balanced (w : World) (trail : List Trial) (after : World) : Prop where
  count : ∀ c, after.count c + Trial.timesOn c .pickBeeper trail =
    w.count c + Trial.timesOn c .putBeeper trail
  total : after.total + Trial.times .pickBeeper trail = w.total + Trial.times .putBeeper trail
  bag : ∀ n, w.bag = some n → ∃ m, after.bag = some m ∧
    m + Trial.times .putBeeper trail = n + Trial.times .pickBeeper trail
  endless : w.bag = none → after.bag = none

theorem Balanced.trans (h : Balanced w trail mid) (h' : Balanced mid later after) :
    Balanced w (trail ++ later) after where
  count c := by
    have hfirst := h.count c
    have hsecond := h'.count c
    rw [Trial.timesOn_append, Trial.timesOn_append]
    omega
  total := by
    have hfirst := h.total
    have hsecond := h'.total
    rw [Trial.times_append, Trial.times_append]
    omega
  bag n hn := by
    obtain ⟨m, hm, hfirst⟩ := h.bag n hn
    obtain ⟨k, hk, hsecond⟩ := h'.bag m hm
    refine ⟨k, hk, ?_⟩
    rw [Trial.times_append, Trial.times_append]
    omega
  endless hnone := h'.endless (h.endless hnone)

/-- Where nothing is put down and nothing picked up, nothing may change. -/
theorem balanced_of_idle (hbeepers : after.beepers = w.beepers) (hbag : after.bag = w.bag)
    (hput : ∀ t ∈ trail, t.does .putBeeper = false)
    (hpick : ∀ t ∈ trail, t.does .pickBeeper = false) : Balanced w trail after := by
  refine ⟨fun c => ?_, ?_, fun n hn => ⟨n, hbag.trans hn, ?_⟩, hbag.trans⟩
  · rw [Trial.timesOn_eq_zero fun t ht _ => hput t ht, Trial.timesOn_eq_zero fun t ht _ => hpick t ht,
      World.count, World.count, hbeepers]
  · rw [Trial.times_eq_zero hput, Trial.times_eq_zero hpick, World.total, World.total, hbeepers]
  · rw [Trial.times_eq_zero hput, Trial.times_eq_zero hpick]

theorem balanced_put (hw : w.Ordered) (h : w.perform .putBeeper = .ok after) :
    Balanced w [⟨w, .putBeeper, .ok after⟩] after := by
  obtain ⟨hready, hafter⟩ := perform_putBeeper_eq_ok.1 h
  refine ⟨fun c => ?_, ?_, fun n hn => ⟨n - 1, ?_, ?_⟩, fun hnone => ?_⟩
  · rw [Trial.timesOn_ok, Trial.timesOn_ok, World.count, World.count, hafter,
      countIn_addCount hw.beepers]
    simp
  · rw [Trial.times_ok, Trial.times_ok, World.total, World.total, hafter, totalIn_addCount]
    simp
  · rw [hafter, hn]
    rfl
  · have hpos : 0 < n := by simpa [bagHasBeeper, hn] using hready
    rw [Trial.times_ok, Trial.times_ok, if_pos rfl, if_neg (by decide)]
    omega
  · rw [hafter, hnone]
    rfl

theorem balanced_pick (hw : w.Ordered) (h : w.perform .pickBeeper = .ok after) :
    Balanced w [⟨w, .pickBeeper, .ok after⟩] after := by
  obtain ⟨hpos, hafter⟩ := perform_pickBeeper_eq_ok.1 h
  refine ⟨fun c => ?_, ?_, fun n hn => ⟨n + 1, ?_, ?_⟩, fun hnone => ?_⟩
  · rw [Trial.timesOn_ok, Trial.timesOn_ok, World.count, World.count, hafter,
      countIn_removeOne hw.beepers]
    by_cases hc : w.robot.cell = c
    · have hcount : 0 < countIn w.beepers c := hc ▸ hpos
      simp only [hc, and_true, if_true, reduceCtorEq, if_false, Nat.add_zero]
      omega
    · simp [hc]
  · have htotal := totalIn_removeOne hpos
    rw [Trial.times_ok, Trial.times_ok, World.total, World.total, hafter, ← htotal]
    simp
  · rw [hafter, hn]
    rfl
  · rw [Trial.times_ok, Trial.times_ok, if_pos rfl, if_neg (by decide)]
  · rw [hafter, hnone]
    rfl

/-- An action that is performed moves one beeper between bag and cell, or none at all. -/
theorem perform_balanced {a : Action} (hw : w.Ordered) (h : w.perform a = .ok after) :
    Balanced w [⟨w, a, .ok after⟩] after := by
  cases a with
  | move =>
    obtain ⟨-, rfl⟩ := perform_move_eq_ok.1 h
    exact balanced_of_idle rfl rfl (by simp [Trial.does]) (by simp [Trial.does])
  | turnLeft =>
    cases h
    exact balanced_of_idle rfl rfl (by simp [Trial.does]) (by simp [Trial.does])
  | turnRight =>
    cases h
    exact balanced_of_idle rfl rfl (by simp [Trial.does]) (by simp [Trial.does])
  | putBeeper => exact balanced_put hw h
  | pickBeeper => exact balanced_pick hw h

/-- An action that is not performed leaves the books as they were. -/
theorem balanced_of_error {a : Action} {kind : FaultKind} : Balanced w [⟨w, a, .error kind⟩] w :=
  balanced_of_idle rfl rfl (by simp [Trial.does, Trial.succeeds, Except.toBool])
    (by simp [Trial.does, Trial.succeeds, Except.toBool])

/-- So does the record of a step, which holds one action at most. -/
theorem records_balanced {tried : List Attempt} {result : Except MissingProcedure StepResult}
    (hw : w.Ordered) (h : Records w tried result after) :
    Balanced w (tried.map (Trial.mk w)) after := by
  cases h with
  | acted ha => exact perform_balanced hw ha
  | failed ha line => exact balanced_of_error
  | nothing hstops => exact balanced_of_idle rfl rfl (by simp) (by simp)

theorem records_ordered {tried : List Attempt} {result : Except MissingProcedure StepResult}
    (hw : w.Ordered) (h : Records w tried result after) : after.Ordered := by
  cases h with
  | acted ha => exact perform_ordered hw ha
  | failed ha line => exact hw
  | nothing hstops => exact hw

/-! ### All that is tried in a world -/

/-- What has been tried in a world so far, and what the world has become. -/
inductive History (w : World) : List Trial → World → Prop where
  | start : History w [] w
  /-- An action by hand, whatever comes of it. -/
  | byHand {trail : List Trial} {mid : World} (h : History w trail mid) (a : Action)
      (line : Option Int) : History w (trail ++ [⟨mid, a, mid.perform a⟩]) (mid.act a line).2
  /-- A step of a run, be it the first step of a program, the next one or a step after the end. -/
  | byProgram {trail : List Trial} {mid : World} {limits : Limits} {r : Run} {tried : List Attempt}
      (h : History w trail mid) (htries : r.Tries limits mid tried) :
      History w (trail ++ tried.map (Trial.mk mid)) (r.step limits mid).world

/-- An action by hand is a record of its own. -/
theorem act_records (w : World) (a : Action) (line : Option Int) :
    Records w [⟨a, w.perform a⟩] (.ok (w.act a line).1) (w.act a line).2 := by
  rw [act]
  cases ha : w.perform a with
  | ok after => exact .acted ha
  | error kind => exact .failed ha line

/-- Every step of a run is a part of the history. -/
theorem History.step (h : History w trail mid) (limits : Limits) (r : Run) :
    ∃ tried : List Attempt,
      History w (trail ++ tried.map (Trial.mk mid)) (r.step limits mid).world := by
  obtain ⟨tried, htries, -⟩ := r.step_records limits mid
  exact ⟨tried, h.byProgram htries⟩

/-- All that is tried in a world keeps the world in order, and the books too. -/
theorem History.balanced (hw : w.Ordered) (h : History w trail after) :
    Balanced w trail after ∧ after.Ordered := by
  induction h with
  | start => exact ⟨balanced_of_idle rfl rfl (by simp) (by simp), hw⟩
  | @byHand trail mid _ a line ih =>
    obtain ⟨hbalanced, hordered⟩ := ih
    have hrecords := act_records mid a line
    exact ⟨hbalanced.trans (records_balanced hordered hrecords), records_ordered hordered hrecords⟩
  | @byProgram trail mid limits r tried _ htries ih =>
    obtain ⟨hbalanced, hordered⟩ := ih
    obtain ⟨other, hother, hrecords⟩ := r.step_records limits mid
    obtain rfl := htries.eq hother
    exact ⟨hbalanced.trans (records_balanced hordered hrecords), records_ordered hordered hrecords⟩

/-- Whatever is tried in a world, by programs and by hand: a finite bag and the grid hold as many
beepers as ever. If the bag is endless, it stays so, and the grid holds those beepers more that have
been put down and not picked up. On every single cell only those count for which the robot stood
there, and a cell on which nothing has succeeded is as it was. -/
theorem History.beepers_conserved (hw : w.Reached) (h : History w trail after) :
    (∀ n, w.bag = some n → ∃ m, after.bag = some m ∧ m + after.total = n + w.total) ∧
      (w.bag = none → after.bag = none ∧ (after.total : Int) =
        w.total + Trial.times .putBeeper trail - Trial.times .pickBeeper trail) ∧
      (∀ c, (after.count c : Int) =
        w.count c + Trial.timesOn c .putBeeper trail - Trial.timesOn c .pickBeeper trail) ∧
      ∀ c, (∀ t ∈ trail, t.madeOn c = true → t.succeeds = false) → after.count c = w.count c := by
  obtain ⟨hbalanced, -⟩ := h.balanced hw.ordered
  have htotal := hbalanced.total
  refine ⟨fun n hn => ?_, fun hnone => ⟨hbalanced.endless hnone, by omega⟩, fun c => ?_,
    fun c hc => ?_⟩
  · obtain ⟨m, hm, hbag⟩ := hbalanced.bag n hn
    exact ⟨m, hm, by omega⟩
  · have hcount := hbalanced.count c
    omega
  · have hidle (a : Action) : Trial.timesOn c a trail = 0 :=
      Trial.timesOn_eq_zero fun t ht hon => by simp [Trial.does, hc t ht hon]
    have hcount := hbalanced.count c
    rwa [hidle, hidle] at hcount

/-- A cell with one beeper, and a robot on it that carries one. -/
def nook : World :=
  ⟨1, 1, .home, [], [(⟨0, 0⟩, 1)], some 1⟩

/-- A program that empties a cell and walks on. -/
def gleaning : Program :=
  Program.ofActions [.pickBeeper, .move] "main"

/-- A run of that program. -/
def gleaner : Run :=
  ⟨gleaning, [.enter .procedure [.action .pickBeeper 1, .action .move 2]], .running, 0, none⟩

/-- The program picks the beeper up, and its second action fails. By hand both beepers are put down, and
a third one is not there. -/
theorem History.beepers_conserved_nook : nook.Reached ∧ Run.start? gleaning = some gleaner ∧
    ∃ (trail : List Trial) (after : World), History nook trail after ∧ trail.length = 5 ∧
      Trial.times .pickBeeper trail = 1 ∧ Trial.times .putBeeper trail = 2 ∧
      (∃ m, after.bag = some m ∧ m + after.total = 2) ∧ after.count ⟨0, 0⟩ = 2 ∧
      after.count ⟨1, 0⟩ = 0 := by
  have hreached : nook.Reached := .of_description (d := nook.snapshot) rfl
  let second : Stepped := gleaner.step ⟨1, 1⟩ nook
  have hpick : gleaner.Tries ⟨1, 1⟩ nook [⟨.pickBeeper, nook.perform .pickBeeper⟩] :=
    Run.tries_action nook rfl rfl rfl Nat.one_pos
  have hmove : second.run.Tries ⟨1, 1⟩ second.world [⟨.move, second.world.perform .move⟩] :=
    Run.tries_action second.world rfl rfl rfl Nat.one_pos
  have hprogram := (History.start.byProgram hpick).byProgram hmove
  have hhand := ((hprogram.byHand .putBeeper none).byHand .putBeeper none).byHand .putBeeper none
  obtain ⟨hbag, -, hcount, -⟩ := History.beepers_conserved hreached hhand
  exact ⟨hreached, rfl, _, _, hhand, rfl, rfl, rfl, hbag 1 rfl, Int.ofNat.inj (hcount ⟨0, 0⟩),
    Int.ofNat.inj (hcount ⟨1, 0⟩)⟩

end World

end GridRobot
