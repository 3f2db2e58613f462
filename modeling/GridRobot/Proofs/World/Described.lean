import GridRobot.Proofs.Reading
import GridRobot.Proofs.World.Draft
import Mathlib.Algebra.Order.BigOperators.Group.List

/-!
# What entries make

The entries of a world file make a description together: the last size, the last robot and the last bag
hold, walls are a set, and the beepers of a cell are added up. If that is not a world, a cause is given.

## Main definitions

* `Entry.Sane` says that nothing is wrong with an entry by itself.
* `Unfit` says that some entries do not make a world, and `Flaw` which cause is given for that.
* `Folds` says which description some entries make.

## Main statements

* `Description.find?_addCounts`: the first cell off the grid is the one that is first mentioned.
* `describe_of_flaw` and `describe_of_fit`: what comes of entries.
-/

namespace GridRobot

open Description (inside)

/-! ### What entries say together -/

namespace Entry

/-- The last size in some entries. -/
def lastSize? (entries : List Entry) : Option (Int × Int) :=
  (entries.filterMap size?).getLast?

/-- The last robot in some entries, or the one that there is from the beginning. -/
def lastRobot (entries : List Entry) : Robot :=
  ((entries.filterMap robotOf?).getLast?).getD .home

/-- The last bag in some entries, or the one that holds for want of any. -/
def lastBag (bag : Option Int) (entries : List Entry) : Option Int :=
  ((entries.filterMap fill?).getLast?).getD bag

/-- The beepers in some entries. -/
def heaps (entries : List Entry) : List (Cell × Int) :=
  entries.filterMap heap?

/-- Sizes are positive, and there are not fewer beepers than none. -/
def Sane : Entry → Prop
  | .dimension width height => 0 < width ∧ 0 < height
  | .beepers _ _ count => 0 ≤ count
  | .bag (some n) => 0 ≤ n
  | _ => True

end Entry

open Entry (lastSize? lastRobot lastBag heaps)

variable {bag : Option Int} {entries : List Entry} {width height : Int} {cause : FormatError.Cause}

/-- Some entries do not make a world: they have no size, the robot or some beepers are off the grid, or
they have no bag and the one that holds instead is negative. -/
inductive Unfit (bag : Option Int) (entries : List Entry) : Prop where
  | noSize (hsize : lastSize? entries = none)
  | robot {width height : Int} (hsize : lastSize? entries = some (width, height))
      (hout : inside width height (lastRobot entries).cell = false)
  | beepers {width height : Int} {heap : Cell × Int} (hsize : lastSize? entries = some (width, height))
      (hheap : heap ∈ heaps entries) (hout : inside width height heap.1 = false)
  | bag {n : Int} (hnone : entries.filterMap Entry.fill? = []) (hbag : bag = some n) (hneg : n < 0)

/-- The cause that is given for that: the robot comes before beepers, of these the ones that are first
said to be off the grid, and the bag comes last. -/
inductive Flaw (bag : Option Int) (entries : List Entry) : FormatError.Cause → Prop where
  | noSize (hsize : lastSize? entries = none) : Flaw bag entries .missingDimension
  | robot {width height : Int} (hsize : lastSize? entries = some (width, height))
      (hout : inside width height (lastRobot entries).cell = false) :
      Flaw bag entries (.robotOutside (lastRobot entries).cell.x (lastRobot entries).cell.y)
  | beepers {width height : Int} {heap : Cell × Int} (hsize : lastSize? entries = some (width, height))
      (hrobot : inside width height (lastRobot entries).cell = true)
      (hfirst : (heaps entries).find? (fun heap => !inside width height heap.1) = some heap) :
      Flaw bag entries (.beeperOutside heap.1.x heap.1.y)
  | bag {width height n : Int} (hsize : lastSize? entries = some (width, height))
      (hrobot : inside width height (lastRobot entries).cell = true)
      (hall : (heaps entries).find? (fun heap => !inside width height heap.1) = none)
      (hbag : lastBag bag entries = some n) (hneg : n < 0) : Flaw bag entries .bagNegative

/-- The description that some entries make. -/
structure Folds (bag : Option Int) (entries : List Entry) (d : Description) : Prop where
  size : lastSize? entries = some (d.width, d.height)
  robot : d.robot = lastRobot entries
  bag : d.bag = lastBag bag entries
  /-- Walls are a set: their order does not count. -/
  walls : ∀ s, s ∈ d.walls ↔ s ∈ entries.filterMap Entry.side?
  walls_ordered : d.walls.Pairwise Wall.Precedes
  /-- Every cell that is mentioned has one entry, even if no beepers are put there. -/
  cells : ∀ c, c ∈ d.beepers.map Prod.fst ↔ c ∈ (heaps entries).map Prod.fst
  cells_once : (d.beepers.map Prod.fst).Nodup
  count : ∀ c, Description.countIn d.beepers c = Description.total (heaps entries) c

/-! ### Beepers off the grid -/

namespace Description

variable {given heaps : List (Cell × Int)} {c : Cell} {n : Int} {e : Cell × Int}

theorem find?_setCount (p : Cell → Bool) :
    ((setCount given c n).find? fun e => p e.1).map Prod.fst =
      ((given.find? fun e => p e.1).map Prod.fst).or (if p c then some c else none) := by
  induction given with
  | nil =>
    by_cases hc : p c = true <;> simp [setCount, hc]
  | cons e rest ih =>
    obtain ⟨d, m⟩ := e
    rw [setCount]
    split
    · next heq =>
      subst heq
      by_cases hd : p d = true <;> simp [hd]
    · by_cases hd : p d = true
      · simp [hd]
      · simp [hd, ih]

/-- Cells have their entries in the order in which they are first mentioned. -/
theorem find?_addCounts (p : Cell → Bool) :
    ((heaps.foldl addCount given).find? fun e => p e.1).map Prod.fst =
      ((given.find? fun e => p e.1).map Prod.fst).or ((heaps.find? fun e => p e.1).map Prod.fst) := by
  induction heaps generalizing given with
  | nil => simp
  | cons heap rest ih =>
    rw [List.foldl_cons, ih, addCount, find?_setCount, Option.or_assoc]
    by_cases hheap : p heap.1 = true <;> simp [hheap]

theorem total_nonneg (h : ∀ heap ∈ heaps, 0 ≤ heap.2) : 0 ≤ total heaps c := by
  refine List.sum_nonneg fun n hn => ?_
  obtain ⟨heap, hheap, rfl⟩ := List.mem_map.1 hn
  exact h heap (List.mem_filter.1 hheap).1

/-- Where no count is negative, what is wrong with an entry is that it is off the grid. -/
theorem findSome?_entryProblem? (width height : Int) (h : ∀ e ∈ given, 0 ≤ e.2) :
    given.findSome? (entryProblem? width height) =
      (((given.find? fun e => !inside width height e.1).map Prod.fst).map
        fun c => .beeperOutside c.x c.y) := by
  induction given with
  | nil => rfl
  | cons e rest ih =>
    have he : ¬ e.2 < 0 := not_lt.2 (h e (by simp))
    rw [List.findSome?_cons, List.find?_cons, ih fun e he => h e (by simp [he])]
    by_cases hin : inside width height e.1 = true
    · simp [entryProblem?, hin, he]
    · simp [entryProblem?, hin]

end Description

/-! ### What comes of entries -/

/-- The layout that some entries make on a grid. -/
def laidOut (bag : Option Int) (entries : List Entry) (width height : Int) : Description :=
  ⟨width, height, lastRobot entries, Description.wallSet (entries.filterMap Entry.side?),
    (heaps entries).foldl Description.addCount [], lastBag bag entries⟩

theorem folds_laidOut (hsize : lastSize? entries = some (width, height)) :
    Folds bag entries (laidOut bag entries width height) where
  size := hsize
  robot := rfl
  bag := rfl
  walls _ := Description.mem_wallSet
  walls_ordered := Description.pairwise_wallSet _
  cells c := by
    rw [laidOut, Description.mem_keys_addCounts]
    simp
  cells_once := Description.nodup_addCounts List.nodup_nil
  count c := by
    rw [laidOut, Description.countIn_addCounts]
    simp [Description.countIn]

namespace Draft

theorem finish_empty : ((empty bag).addAll entries).finish = match lastSize? entries with
    | none => .error ⟨.missingDimension, none⟩
    | some (width, height) => (laidOut bag entries width height).checked := by
  rw [finish, addAll_size, addAll_robot, addAll_walls, addAll_beepers, addAll_bag]
  show (match (lastSize? entries).or none with
    | none => Except.error _
    | some (width, height) => Description.checked _) = _
  rw [Option.or_none]
  rfl

end Draft

theorem nonneg_of_sane (hsane : ∀ e ∈ entries, e.Sane) : ∀ heap ∈ heaps entries, 0 ≤ heap.2 := by
  intro heap hheap
  obtain ⟨e, he, hsome⟩ := List.mem_filterMap.1 hheap
  have hsane := hsane e he
  cases e with
  | beepers => cases hsome; exact hsane
  | _ => cases hsome

theorem size_of_sane (hsane : ∀ e ∈ entries, e.Sane) (hsize : lastSize? entries = some (width, height)) :
    0 < width ∧ 0 < height := by
  obtain ⟨e, he, hsome⟩ := List.mem_filterMap.1 (List.mem_of_getLast? hsize)
  have hsane := hsane e he
  cases e with
  | dimension => cases hsome; exact hsane
  | _ => cases hsome

/-- Only the bag that holds for want of any may be negative. -/
theorem lastBag_neg_iff (hsane : ∀ e ∈ entries, e.Sane) {n : Int} (hneg : n < 0) :
    lastBag bag entries = some n ↔ entries.filterMap Entry.fill? = [] ∧ bag = some n := by
  rw [lastBag]
  cases hlast : (entries.filterMap Entry.fill?).getLast? with
  | none =>
    rw [List.getLast?_eq_none_iff] at hlast
    simp [hlast]
  | some last =>
    have hne : entries.filterMap Entry.fill? ≠ [] := by
      intro hnil
      rw [hnil] at hlast
      cases hlast
    refine iff_of_false ?_ fun h => hne h.1
    rw [Option.getD_some]
    rintro rfl
    obtain ⟨e, he, hsome⟩ := List.mem_filterMap.1 (List.mem_of_getLast? hlast)
    have hsane := hsane e he
    cases e with
    | bag => cases hsome; exact absurd hsane (not_le.2 hneg)
    | _ => cases hsome

theorem nonneg_addCounts {heaps : List (Cell × Int)} (h : ∀ heap ∈ heaps, 0 ≤ heap.2) :
    ∀ e ∈ heaps.foldl Description.addCount [], 0 ≤ e.2 := by
  rintro ⟨c, n⟩ he
  have honce : ((heaps.foldl Description.addCount []).map Prod.fst).Nodup :=
    Description.nodup_addCounts List.nodup_nil
  have hcount := ((Description.mem_iff_countIn honce).1 he).2
  rw [Description.countIn_addCounts, Description.countIn, Int.zero_add] at hcount
  rw [← hcount]
  exact Description.total_nonneg h

/-- What is wrong with a layout that entries make. -/
theorem problem?_laidOut (bag : Option Int) (hsane : ∀ e ∈ entries, e.Sane)
    (hsize : lastSize? entries = some (width, height)) :
    (laidOut bag entries width height).problem? =
      if inside width height (lastRobot entries).cell then
        (((heaps entries).find? fun heap => !inside width height heap.1).map
          fun heap => .beeperOutside heap.1.x heap.1.y).or
            (Description.bagProblem? (lastBag bag entries))
      else some (.robotOutside (lastRobot entries).cell.x (lastRobot entries).cell.y) := by
  obtain ⟨hwidth, hheight⟩ := size_of_sane hsane hsize
  have hpos : ¬ (width ≤ 0 ∨ height ≤ 0) := not_or.2 ⟨not_le.2 hwidth, not_le.2 hheight⟩
  have hbeepers := Description.findSome?_entryProblem? width height
    (nonneg_addCounts (nonneg_of_sane hsane))
  rw [Description.find?_addCounts fun c => !inside width height c] at hbeepers
  rw [Description.problem?, laidOut, if_neg hpos, hbeepers]
  by_cases hrobot : inside width height (lastRobot entries).cell = true
  · simp [hrobot, Option.map_map, Function.comp_def]
  · simp [hrobot]

/-- Every cause that is given is what is wrong. -/
theorem Draft.finish_of_flaw (hsane : ∀ e ∈ entries, e.Sane) (h : Flaw bag entries cause) :
    ((empty bag).addAll entries).finish = .error ⟨cause, none⟩ := by
  have hchecked {width height : Int} (hsize : lastSize? entries = some (width, height))
      (hproblem : (laidOut bag entries width height).problem? = some cause) :
      ((empty bag).addAll entries).finish = .error ⟨cause, none⟩ := by
    rw [finish_empty, hsize]
    simp only [Description.checked, hproblem]
  cases h with
  | noSize hsize => rw [finish_empty, hsize]
  | robot hsize hout =>
    refine hchecked hsize ?_
    rw [problem?_laidOut bag hsane hsize, hout, if_neg nofun]
  | beepers hsize hrobot hfirst =>
    refine hchecked hsize ?_
    rw [problem?_laidOut bag hsane hsize, hrobot, if_pos rfl, hfirst]
    rfl
  | bag hsize hrobot hall hbag hneg =>
    refine hchecked hsize ?_
    rw [problem?_laidOut bag hsane hsize, hrobot, if_pos rfl, hall, hbag]
    exact if_pos hneg

/-- Entries that do not make a world have a cause given for it. -/
theorem Unfit.exists_flaw (h : Unfit bag entries) : ∃ cause, Flaw bag entries cause := by
  cases hsize : lastSize? entries with
  | none => exact ⟨_, .noSize hsize⟩
  | some size =>
    obtain ⟨width, height⟩ := size
    cases hrobot : inside width height (lastRobot entries).cell with
    | false => exact ⟨_, .robot hsize hrobot⟩
    | true =>
      cases hfirst : (heaps entries).find? fun heap => !inside width height heap.1 with
      | some heap => exact ⟨_, .beepers hsize hrobot hfirst⟩
      | none =>
        -- on this grid nothing else is wrong than the bag
        have hgrid {width' height' : Int} (hsize' : lastSize? entries = some (width', height')) :
            width' = width ∧ height' = height := by
          rw [hsize] at hsize'
          obtain ⟨rfl, rfl⟩ := Prod.mk.inj (Option.some.inj hsize')
          exact ⟨rfl, rfl⟩
        cases h with
        | noSize hnone =>
          rw [hsize] at hnone
          cases hnone
        | robot hsize' hout =>
          obtain ⟨rfl, rfl⟩ := hgrid hsize'
          rw [hrobot] at hout
          cases hout
        | beepers hsize' hheap hout =>
          obtain ⟨rfl, rfl⟩ := hgrid hsize'
          have hin := List.find?_eq_none.1 hfirst _ hheap
          rw [hout] at hin
          exact absurd rfl hin
        | bag hnone hbag hneg =>
          refine ⟨_, .bag hsize hrobot hfirst ?_ hneg⟩
          rw [lastBag, hnone]
          exact hbag

/-- Entries of which nothing is wrong make a description. -/
theorem Draft.finish_of_fit (hsane : ∀ e ∈ entries, e.Sane) (h : ¬ Unfit bag entries) :
    ∃ d, ((empty bag).addAll entries).finish = .ok d ∧ Folds bag entries d := by
  cases hsize : lastSize? entries with
  | none => exact absurd (.noSize hsize) h
  | some size =>
    obtain ⟨width, height⟩ := size
    have hrobot : inside width height (lastRobot entries).cell = true := by
      by_contra hout
      exact h (.robot hsize (by simpa using hout))
    have hheaps : (heaps entries).find? (fun heap => !inside width height heap.1) = none := by
      refine List.find?_eq_none.2 fun heap hheap hout => ?_
      exact h (.beepers hsize hheap (by simpa using hout))
    have hbag : Description.bagProblem? (lastBag bag entries) = none := by
      refine Description.bagProblem?_eq_none.2 fun n hn => ?_
      by_contra hneg
      obtain ⟨hnone, hbag⟩ := (lastBag_neg_iff hsane (not_le.1 hneg)).1 hn
      exact h (.bag hnone hbag (not_le.1 hneg))
    refine ⟨laidOut bag entries width height, ?_, folds_laidOut hsize⟩
    have hproblem := problem?_laidOut bag hsane hsize
    rw [hrobot, if_pos rfl, hheaps, hbag] at hproblem
    rw [finish_empty, hsize]
    exact Description.checked_eq_ok.2 ⟨hproblem, rfl⟩

/-- The cause is told, if it can be. -/
theorem describe_of_flaw (hsane : ∀ e ∈ entries, e.Sane) (h : Flaw bag entries cause) :
    describe bag entries =
      .error (if cause.isWritable then .format ⟨cause, none⟩ else .broken .badNumber) := by
  rw [describe, Draft.finish_of_flaw hsane h, mapError_error, LayoutError.ofFormat]

theorem describe_of_fit (hsane : ∀ e ∈ entries, e.Sane) (h : ¬ Unfit bag entries) :
    ∃ d, describe bag entries = .ok d ∧ Folds bag entries d := by
  obtain ⟨d, hd, hfolds⟩ := Draft.finish_of_fit hsane h
  exact ⟨d, by rw [describe, hd, mapError_ok], hfolds⟩

end GridRobot
