import GridRobot.World.Basic

/-!
# Actions are seen

An action that is performed changes what is seen of the world.

## Main statements

* `World.perform_move_eq_ok` and the two beside it: what an action needs, and what it does.
* `World.perform_snapshot_ne`: the layout after an action is another one.
-/

namespace GridRobot

theorem Direction.left_ne (d : Direction) : d.left ≠ d := by
  cases d <;> decide

theorem Direction.right_ne (d : Direction) : d.right ≠ d := by
  cases d <;> decide

theorem Cell.step_ne (c : Cell) (d : Direction) : c.step d ≠ c := by
  intro h
  have hx : c.x + d.dx = c.x := congrArg Cell.x h
  have hy : c.y + d.dy = c.y := congrArg Cell.y h
  cases d <;> simp only [Direction.dx, Direction.dy] at hx hy <;> omega

namespace World

variable {w after : World} {c : Cell} {entries : List (Cell × Nat)}

theorem addCount_ne : addCount c 1 entries ≠ entries := by
  induction entries with
  | nil => simp [addCount]
  | cons e rest ih =>
    obtain ⟨d, m⟩ := e
    rw [addCount]
    split
    · simp
    · split
      · exact fun h => by simpa using congrArg List.length h
      · simpa using ih

theorem removeOne_ne (h : 0 < countIn entries c) : removeOne c entries ≠ entries := by
  induction entries with
  | nil => simp [countIn] at h
  | cons e rest ih =>
    obtain ⟨d, m⟩ := e
    rw [removeOne]
    by_cases hc : c = d
    · subst hc
      have hm : 0 < m := by simpa [countIn] using h
      by_cases hone : m ≤ 1
      · simp [hone]
      · simp only [if_true, hone, if_false, ne_eq, List.cons.injEq, Prod.mk.injEq, true_and,
          and_true]
        omega
    · have hrest : 0 < countIn rest c := by simpa [countIn, Ne.symm hc] using h
      simpa [hc] using ih hrest

theorem beepers_of_snapshot (h : after.snapshot = w.snapshot) : after.beepers = w.beepers := by
  have hmap := congrArg Description.beepers h
  simp only [snapshot] at hmap
  refine (List.map_inj_right ?_).1 hmap
  rintro ⟨c, n⟩ ⟨d, m⟩ heq
  simpa [Int.natCast_inj] using heq

/-! What an action needs, and what it does. -/

theorem perform_move_eq_ok : w.perform .move = .ok after ↔
    w.isClear w.robot.facing = true ∧
      after = { w with robot := ⟨w.robot.cell.step w.robot.facing, w.robot.facing⟩ } := by
  rw [perform, move]
  split
  · rename_i hready
    rw [Except.ok.injEq, eq_comm, and_iff_right hready]
  · rename_i hready
    exact iff_of_false nofun fun h => hready h.1

theorem perform_putBeeper_eq_ok : w.perform .putBeeper = .ok after ↔
    w.bagHasBeeper = true ∧
      after = { w with beepers := addCount w.robot.cell 1 w.beepers, bag := w.bag.map (· - 1) } := by
  rw [perform, putBeeper]
  split
  · rename_i hready
    rw [Except.ok.injEq, eq_comm, and_iff_right hready]
  · rename_i hready
    exact iff_of_false nofun fun h => hready h.1

theorem perform_pickBeeper_eq_ok : w.perform .pickBeeper = .ok after ↔
    0 < w.countHere ∧
      after = { w with beepers := removeOne w.robot.cell w.beepers, bag := w.bag.map (· + 1) } := by
  rw [perform, pickBeeper]
  split
  · rename_i hready
    rw [Except.ok.injEq, eq_comm, and_iff_right hready]
  · rename_i hready
    exact iff_of_false nofun fun h => hready h.1

/-- An action that is performed changes what is seen of the world. -/
theorem perform_snapshot_ne {a : Action} (h : w.perform a = .ok after) :
    after.snapshot ≠ w.snapshot := by
  intro hsame
  have hrobot : after.robot = w.robot := congrArg Description.robot hsame
  have hbeepers := beepers_of_snapshot hsame
  cases a with
  | move =>
    obtain ⟨-, rfl⟩ := perform_move_eq_ok.1 h
    exact Cell.step_ne _ _ (congrArg Robot.cell hrobot)
  | turnLeft =>
    cases h
    exact Direction.left_ne _ (congrArg Robot.facing hrobot)
  | turnRight =>
    cases h
    exact Direction.right_ne _ (congrArg Robot.facing hrobot)
  | putBeeper =>
    obtain ⟨-, rfl⟩ := perform_putBeeper_eq_ok.1 h
    exact addCount_ne hbeepers
  | pickBeeper =>
    obtain ⟨hcount, rfl⟩ := perform_pickBeeper_eq_ok.1 h
    exact removeOne_ne hcount hbeepers

end World

end GridRobot
