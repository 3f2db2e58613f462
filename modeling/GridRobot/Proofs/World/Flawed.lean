import GridRobot.Proofs.World.Invariant
import Mathlib.Tactic.ByContra

/-!
# What is wrong with a layout

The size of a layout, the place of its robot, its beepers or its bag may be wrong. What is wrong first is
told with the numbers that it is about, and those may be too long to be written.

## Main definitions

* `Description.Flawed` says that something is wrong with a layout.
* `Description.Untellable` says that the first thing that is wrong with it has numbers that are too long.

## Main statements

* `Description.flawed_iff`, `Description.untellable_iff`: both of a layout that is looked over in order.
-/

namespace GridRobot.Description

/-- Something is wrong with a layout. -/
inductive Flawed (d : Description) : Prop where
  | width (h : d.width ≤ 0)
  | height (h : d.height ≤ 0)
  | robotOutside (h : ¬ inside d.width d.height d.robot.cell)
  | beepersOutside {e : Cell × Int} (he : e ∈ d.beepers) (h : ¬ inside d.width d.height e.1)
  | beepersNegative {e : Cell × Int} (he : e ∈ d.beepers) (h : e.2 < 0)
  | bagNegative {n : Int} (hn : n ∈ d.bag) (h : n < 0)

/-- Two numbers are too long to be told. -/
def TooLong (x y : Int) : Prop :=
  ¬ (Text.isWritable x = true ∧ Text.isWritable y = true)

/-- The first thing that is wrong with a layout, in the order size, robot, beepers, cannot be told. A bag
is told without its number. -/
inductive Untellable (d : Description) : Prop where
  | size (h : d.width ≤ 0 ∨ d.height ≤ 0) (hlong : TooLong d.width d.height)
  | robot (hsize : 0 < d.width ∧ 0 < d.height) (h : ¬ inside d.width d.height d.robot.cell)
      (hlong : TooLong d.robot.cell.x d.robot.cell.y)
  | beepers (hsize : 0 < d.width ∧ 0 < d.height) (hrobot : inside d.width d.height d.robot.cell)
      {before after : List (Cell × Int)} {e : Cell × Int}
      (hentries : d.beepers = before ++ e :: after)
      (hbefore : ∀ f ∈ before, inside d.width d.height f.1 ∧ 0 ≤ f.2)
      (h : ¬ inside d.width d.height e.1 ∨ e.2 < 0) (hlong : TooLong e.1.x e.1.y)

variable {d : Description}

theorem flawed_iff : d.Flawed ↔ d.problem? ≠ none := by
  rw [Ne, problem?_eq_none]
  constructor
  · rintro h ⟨⟨hwidth, hheight⟩, hrobot, hbeepers, hbag⟩
    cases h with
    | width h => omega
    | height h => omega
    | robotOutside h => exact h hrobot
    | beepersOutside he h => exact h (hbeepers _ he).1
    | beepersNegative he h => exact absurd (hbeepers _ he).2 (by omega)
    | bagNegative hn h => exact absurd (hbag _ hn) (by omega)
  · intro h
    by_contra hnone
    refine h ⟨⟨?_, ?_⟩, ?_, fun e he => ⟨?_, ?_⟩, fun n hn => ?_⟩
    · exact Int.not_le.1 fun hle => hnone (.width hle)
    · exact Int.not_le.1 fun hle => hnone (.height hle)
    · exact not_not.1 fun hout => hnone (.robotOutside hout)
    · exact not_not.1 fun hout => hnone (.beepersOutside he hout)
    · exact Int.not_lt.1 fun hneg => hnone (.beepersNegative he hneg)
    · exact Int.not_lt.1 fun hneg => hnone (.bagNegative hn hneg)

theorem tooLong_iff {x y : Int} : TooLong x y ↔ [x, y].all Text.isWritable = false := by
  simp [TooLong]

/-- A beeper entry is told with its cell. -/
theorem entryProblem?_untellable {width height : Int} {e : Cell × Int} :
    (∃ c, entryProblem? width height e = some c ∧ c.isWritable = false) ↔
      (¬ inside width height e.1 ∨ e.2 < 0) ∧ TooLong e.1.x e.1.y := by
  by_cases hin : inside width height e.1 = true
  · by_cases hneg : e.2 < 0
    · have hentry : entryProblem? width height e = some (.countNegativeAt e.1.x e.1.y) := by
        simp [entryProblem?, hin, hneg]
      simp only [hentry, Option.some.injEq, exists_eq_left', tooLong_iff]
      exact (and_iff_right (.inr hneg)).symm
    · simp [entryProblem?, hin, hneg]
  · have hentry : entryProblem? width height e = some (.beeperOutside e.1.x e.1.y) := by
      simp [entryProblem?, hin]
    simp only [hentry, Option.some.injEq, exists_eq_left', tooLong_iff]
    exact (and_iff_right (.inl hin)).symm

theorem bagProblem?_writable {bag : Option Int} {c : FormatError.Cause}
    (h : bagProblem? bag = some c) : c.isWritable = true := by
  cases bag with
  | none => cases h
  | some n =>
    obtain ⟨-, hc⟩ := Option.ite_none_right_eq_some.1 h
    rw [← Option.some.inj hc]
    rfl

theorem Untellable.exists_cause (h : d.Untellable) :
    ∃ c, d.problem? = some c ∧ c.isWritable = false := by
  cases h with
  | size h hlong =>
    exact ⟨.sizeNotPositive d.width d.height, by rw [problem?, if_pos h], tooLong_iff.1 hlong⟩
  | robot hsize h hlong =>
    have hpos : ¬ (d.width ≤ 0 ∨ d.height ≤ 0) := by omega
    exact ⟨.robotOutside d.robot.cell.x d.robot.cell.y, by simp [problem?, hpos, h],
      tooLong_iff.1 hlong⟩
  | beepers hsize hrobot hentries hbefore h hlong =>
    have hpos : ¬ (d.width ≤ 0 ∨ d.height ≤ 0) := by omega
    obtain ⟨c, hc, hunwritable⟩ := entryProblem?_untellable.2 ⟨h, hlong⟩
    have hfirst : d.beepers.findSome? (entryProblem? d.width d.height) = some c :=
      List.findSome?_eq_some_iff.2
        ⟨_, _, _, hentries, hc, fun f hf => entryProblem?_eq_none.2 (hbefore f hf)⟩
    exact ⟨c, by simp [problem?, hpos, hrobot, hfirst], hunwritable⟩

/-- A cause that cannot be written is that of the size, of the robot or of a beeper entry. -/
theorem untellable_of_problem? {c : FormatError.Cause} (h : d.problem? = some c)
    (hunwritable : c.isWritable = false) : d.Untellable := by
  unfold problem? at h
  split at h
  · next hsize =>
    obtain rfl := Option.some.inj h
    exact .size hsize (tooLong_iff.2 hunwritable)
  next hpos =>
  have hsize : 0 < d.width ∧ 0 < d.height := by omega
  split at h
  · next hrobot =>
    obtain rfl := Option.some.inj h
    exact .robot hsize (by simpa using hrobot) (tooLong_iff.2 hunwritable)
  next hrobot =>
  rcases Option.or_eq_some_iff.1 h with hfirst | ⟨-, hbag⟩
  · obtain ⟨before, e, after, hentries, he, hbefore⟩ := List.findSome?_eq_some_iff.1 hfirst
    obtain ⟨hwrong, hlong⟩ := entryProblem?_untellable.1 ⟨c, he, hunwritable⟩
    exact .beepers hsize (by simpa using hrobot) hentries
      (fun f hf => entryProblem?_eq_none.1 (hbefore f hf)) hwrong hlong
  · -- a bag is told without its number
    rw [bagProblem?_writable hbag] at hunwritable
    cases hunwritable

theorem untellable_iff : d.Untellable ↔ ∃ c, d.problem? = some c ∧ c.isWritable = false :=
  ⟨Untellable.exists_cause, fun ⟨_, h, hunwritable⟩ => untellable_of_problem? h hunwritable⟩

/-- What cannot be told is a flaw. -/
theorem Untellable.flawed (h : d.Untellable) : d.Flawed := by
  obtain ⟨c, hproblem, -⟩ := h.exists_cause
  rw [flawed_iff, hproblem]
  exact Option.some_ne_none c

end GridRobot.Description
