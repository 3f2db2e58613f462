import GridRobot.Proofs.Reading
import GridRobot.Proofs.World.Action
import GridRobot.Proofs.World.Ordered

/-!
# Actions can be undone

Every action that succeeds is undone by others. A turn is undone by the turn to the other side, a beeper
that was put down by picking it up again, and a move by turning round, moving back and turning round once
more. The way back from a move is open because a wall is met from both of its cells.

## Main definitions

* `World.performAll` is a world after some actions, all of which must succeed.
* `Action.undone` and `Action.undoing` are what undoes an action and some actions.

## Main statements

* `World.performAll_undone`: what an action has done is undone.
* `World.performAll_undoing`: so is what some actions have done, one after the other.
-/

namespace GridRobot

namespace Action

/-- What undoes an action. -/
def undone : Action → List Action
  | .move => [.turnLeft, .turnLeft, .move, .turnLeft, .turnLeft]
  | .turnLeft => [.turnRight]
  | .turnRight => [.turnLeft]
  | .putBeeper => [.pickBeeper]
  | .pickBeeper => [.putBeeper]

/-- What undoes some actions: the last one is undone first. -/
def undoing (actions : List Action) : List Action :=
  actions.reverse.flatMap undone

theorem undoing_cons (a : Action) (rest : List Action) :
    undoing (a :: rest) = undoing rest ++ a.undone := by
  simp [undoing]

end Action

namespace World

variable {w mid after : World} {a : Action} {actions earlier later : List Action} {c : Cell}
  {entries : List (Cell × Nat)}

/-- A world after some actions, one after the other; the first fault ends them. -/
def performAll (w : World) (actions : List Action) : Except FaultKind World :=
  actions.foldlM perform w

theorem performAll_cons (h : w.perform a = .ok mid) :
    w.performAll (a :: actions) = mid.performAll actions := by
  rw [performAll, List.foldlM_cons, h]
  rfl

theorem performAll_cons_eq_ok : w.performAll (a :: actions) = .ok after ↔
    ∃ mid, w.perform a = .ok mid ∧ mid.performAll actions = .ok after := by
  rw [performAll, List.foldlM_cons]
  exact bind_eq_ok

theorem performAll_append (h : w.performAll earlier = .ok mid) :
    w.performAll (earlier ++ later) = mid.performAll later := by
  rw [performAll] at h
  rw [performAll, List.foldlM_append, h]
  rfl

/-! ### Beepers -/

/-- A beeper that was put on a cell can be taken again, and nothing is left of it. -/
theorem removeOne_addCount (h : entries.Pairwise EntryPrecedes) (hpos : ∀ e ∈ entries, 0 < e.2) :
    removeOne c (addCount c 1 entries) = entries := by
  have hadded := pairwise_addCount (c := c) (n := 1) h
  have hpositive : ∀ e ∈ addCount c 1 entries, 0 < e.2 := fun e he =>
    (of_mem_addCount he).elim And.right (hpos e)
  refine beepers_ext (pairwise_removeOne hadded) h (fun e he => ?_) hpos fun d => ?_
  · exact (of_mem_removeOne he).elim (hpositive e) And.left
  · rw [countIn_removeOne hadded, countIn_addCount h]
    omega

/-- A beeper that was taken from a cell can be put back, and the cell has as many as before. -/
theorem addCount_removeOne (h : entries.Pairwise EntryPrecedes) (hpos : ∀ e ∈ entries, 0 < e.2)
    (hc : 0 < countIn entries c) : addCount c 1 (removeOne c entries) = entries := by
  have hremoved := pairwise_removeOne (c := c) h
  have hpositive : ∀ e ∈ removeOne c entries, 0 < e.2 := fun e he =>
    (of_mem_removeOne he).elim (hpos e) And.left
  refine beepers_ext (pairwise_addCount hremoved) h (fun e he => ?_) hpos fun d => ?_
  · exact (of_mem_addCount he).elim And.right (hpositive e)
  · rw [countIn_addCount hremoved, countIn_removeOne h]
    by_cases hd : c = d
    · subst hd
      rw [if_pos rfl]
      omega
    · rw [if_neg hd, Nat.sub_zero, Nat.add_zero]

/-! ### One action -/

/-- A beeper that was put down can be picked up. -/
theorem perform_pick_of_put (hw : w.Valid) (hordered : w.Ordered)
    (h : w.perform .putBeeper = .ok after) : after.perform .pickBeeper = .ok w := by
  obtain ⟨hready, rfl⟩ := perform_putBeeper_eq_ok.1 h
  have hbag : (w.bag.map (· - 1)).map (· + 1) = w.bag := by
    cases hb : w.bag with
    | none => rfl
    | some n =>
      have hn : 0 < n := by simpa [bagHasBeeper, hb] using hready
      simp only [Option.map_some, Option.some.injEq]
      omega
  refine perform_pickBeeper_eq_ok.2 ⟨?_, ?_⟩
  · show 0 < countIn (addCount w.robot.cell 1 w.beepers) w.robot.cell
    rw [countIn_addCount hordered.beepers, if_pos rfl]
    exact Nat.succ_pos _
  · have hbeepers := removeOne_addCount (c := w.robot.cell) hordered.beepers
      fun e he => (hw.beepers_inside e he).2
    show w = { w with
      beepers := removeOne w.robot.cell (addCount w.robot.cell 1 w.beepers)
      bag := (w.bag.map (· - 1)).map (· + 1) }
    rw [hbeepers, hbag]

/-- A beeper that was picked up can be put down. -/
theorem perform_put_of_pick (hw : w.Valid) (hordered : w.Ordered)
    (h : w.perform .pickBeeper = .ok after) : after.perform .putBeeper = .ok w := by
  obtain ⟨hpos, rfl⟩ := perform_pickBeeper_eq_ok.1 h
  have hbag : (w.bag.map (· + 1)).map (· - 1) = w.bag := by
    cases w.bag <;> rfl
  refine perform_putBeeper_eq_ok.2 ⟨?_, ?_⟩
  · show bagHasBeeper { w with beepers := _, bag := w.bag.map (· + 1) } = true
    cases hb : w.bag <;> simp [bagHasBeeper]
  · have hbeepers := addCount_removeOne hordered.beepers
      (fun e he => (hw.beepers_inside e he).2) hpos
    show w = { w with
      beepers := addCount w.robot.cell 1 (removeOne w.robot.cell w.beepers)
      bag := (w.bag.map (· + 1)).map (· - 1) }
    rw [hbeepers, hbag]

/-- After a move the way back is open. -/
theorem Valid.hasWall_back (hw : w.Valid) {d : Direction} (h : w.isClear d = true) :
    w.hasWall (w.robot.cell.step d) d.opposite = false := by
  rw [← hw.hasWall_flip hw.robot_inside (inside_of_isClear h)]
  simpa [isClear] using h

/-- A move is undone by moving the other way, and turning round before and after that. -/
theorem performAll_undone_move (hw : w.Valid) (h : w.perform .move = .ok after) :
    after.performAll Action.move.undone = .ok w := by
  obtain ⟨hclear, rfl⟩ := perform_move_eq_ok.1 h
  let turned : World := { w with
    robot := ⟨w.robot.cell.step w.robot.facing, w.robot.facing.opposite⟩ }
  let back : World := { w with robot := ⟨w.robot.cell, w.robot.facing.opposite⟩ }
  have hback : turned.isClear w.robot.facing.opposite = true := by
    show (!w.hasWall (w.robot.cell.step w.robot.facing) w.robot.facing.opposite) = true
    rw [hw.hasWall_back hclear]
    rfl
  have hmove : turned.perform .move = .ok back := by
    refine perform_move_eq_ok.2 ⟨hback, ?_⟩
    show back = { w with robot := ⟨(w.robot.cell.step w.robot.facing).step w.robot.facing.opposite,
      w.robot.facing.opposite⟩ }
    rw [Cell.step_opposite]
  calc World.performAll _ Action.move.undone
    _ = turned.performAll [.move, .turnLeft, .turnLeft] := rfl
    _ = back.performAll [.turnLeft, .turnLeft] := performAll_cons hmove
    _ = .ok { w with robot := ⟨w.robot.cell, w.robot.facing.opposite.opposite⟩ } := rfl
    _ = .ok w := by rw [Direction.opposite_opposite]

/-- What an action has done is undone. -/
theorem performAll_undone (hw : w.Valid) (hordered : w.Ordered) (h : w.perform a = .ok after) :
    after.performAll a.undone = .ok w := by
  cases a with
  | move => exact performAll_undone_move hw h
  | turnLeft =>
    cases h
    show Except.ok { w with robot := ⟨w.robot.cell, w.robot.facing.left.right⟩ } = _
    rw [Direction.right_left]
  | turnRight =>
    cases h
    show Except.ok { w with robot := ⟨w.robot.cell, w.robot.facing.right.left⟩ } = _
    rw [Direction.left_right]
  | putBeeper => exact performAll_cons (perform_pick_of_put hw hordered h)
  | pickBeeper => exact performAll_cons (perform_put_of_pick hw hordered h)

/-! ### Some actions -/

/-- A world that can be reached is left for another one that can be reached. -/
theorem Reached.perform (hw : w.Reached) (h : w.perform a = .ok after) : after.Reached := by
  obtain ⟨d, first, changes, hfirst, rfl⟩ := hw
  refine ⟨d, first, changes ++ [.act a], hfirst, ?_⟩
  rw [through, List.foldl_append]
  show ((first.through changes).act a none).2 = after
  rw [act, h]

/-- What some actions have done is undone, if each of them is undone in turn and the last one first. All
the actions that this takes succeed, and the world is the same as before. -/
theorem performAll_undoing (hw : w.Reached) (h : w.performAll actions = .ok after) :
    after.performAll (Action.undoing actions) = .ok w := by
  induction actions generalizing w with
  | nil =>
    cases h
    rfl
  | cons a rest ih =>
    obtain ⟨mid, hfirst, hrest⟩ := performAll_cons_eq_ok.1 h
    calc after.performAll (Action.undoing (a :: rest))
      _ = after.performAll (Action.undoing rest ++ a.undone) := by rw [Action.undoing_cons]
      _ = mid.performAll a.undone := performAll_append (ih (hw.perform hfirst) hrest)
      _ = .ok w := performAll_undone hw.valid hw.ordered hfirst

/-- A beeper is carried to another cell: every kind of action but one, past a wall. -/
def errand : List Action :=
  [.pickBeeper, .move, .turnRight, .putBeeper, .move, .turnRight, .move]

/-- The room after that. -/
def errandDone : World :=
  { roomWorld with robot := ⟨⟨2, 0⟩, .south⟩, beepers := [(⟨1, 0⟩, 1), (⟨1, 1⟩, 1)] }

theorem performAll_undoing_errand : roomWorld.Reached ∧ roomWorld.performAll errand = .ok errandDone ∧
    errandDone.performAll (Action.undoing errand) = .ok roomWorld := by
  have hreached : roomWorld.Reached := .of_description (d := room) rfl
  have hdone : roomWorld.performAll errand = .ok errandDone := rfl
  exact ⟨hreached, hdone, performAll_undoing hreached hdone⟩

end World

end GridRobot
