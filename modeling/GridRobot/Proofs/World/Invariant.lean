import GridRobot.Proofs.Reading
import GridRobot.World.Basic

/-!
# What is true of every world

A world that comes from a layout keeps to its grid, whatever is done in it: the robot and all beepers
are on cells of the grid, and a wall between two cells is stored for both of them. Actions change
neither the size nor the walls.

## Main definitions

* `World.Valid` is what every world is like.
* `World.Change` is what can be done to a world: an action, or a new layout.
* `World.through` is a world after some changes, those included that are refused.

## Main statements

* `World.mem_bothSides`: a side is stored if its cell is in the grid and the wall was given, from
  either cell.
* `World.ofDescription_valid`: the world of a layout is valid.
* `World.perform_valid`: an action leaves a world valid.
* `World.reset_eq`: a world that is laid out anew is the world of its layout.
* `World.valid_through`: so does every row of changes.
-/

namespace GridRobot

/-! ### Layouts -/

namespace LayoutError

variable {e e' : FormatError} {b : Breakdown}

theorem ofFormat_eq_format : ofFormat e = .format e' ↔ e.cause.isWritable = true ∧ e = e' := by
  unfold ofFormat
  split
  · next h => simp [h]
  · next h => simp [h]

theorem ofFormat_eq_broken :
    ofFormat e = .broken b ↔ e.cause.isWritable = false ∧ b = .badNumber := by
  unfold ofFormat
  split
  · next h => simp [h]
  · next h => simp [h, eq_comm]

end LayoutError

namespace Description

variable {width height : Int} {d d' : Description}

theorem entryProblem?_eq_none {e : Cell × Int} :
    entryProblem? width height e = none ↔ inside width height e.1 ∧ 0 ≤ e.2 := by
  unfold entryProblem?
  by_cases hin : inside width height e.1 = true
  · by_cases hneg : e.2 < 0
    · simp [hin, hneg]
    · have hnonneg : 0 ≤ e.2 := by omega
      simp [hin, hneg, hnonneg]
  · simp [hin]

theorem bagProblem?_eq_none {bag : Option Int} : bagProblem? bag = none ↔ ∀ n ∈ bag, 0 ≤ n := by
  cases bag with
  | none => simp [bagProblem?]
  | some n => simp [bagProblem?]

/-- When a layout is a world. -/
theorem problem?_eq_none : d.problem? = none ↔
    (0 < d.width ∧ 0 < d.height) ∧ inside d.width d.height d.robot.cell ∧
      (∀ e ∈ d.beepers, inside d.width d.height e.1 ∧ 0 ≤ e.2) ∧ ∀ n ∈ d.bag, 0 ≤ n := by
  unfold problem?
  by_cases hsize : d.width ≤ 0 ∨ d.height ≤ 0
  · rw [if_pos hsize]
    have hnot : ¬ (0 < d.width ∧ 0 < d.height) := by omega
    simp [hnot]
  · have hpos : 0 < d.width ∧ 0 < d.height := by omega
    rw [if_neg hsize]
    by_cases hrobot : inside d.width d.height d.robot.cell = true
    · simp [hrobot, hpos, Option.or_eq_none_iff, List.findSome?_eq_none_iff, entryProblem?_eq_none,
        bagProblem?_eq_none]
    · simp [hrobot]

theorem checked_eq_ok : d.checked = .ok d' ↔ d.problem? = none ∧ d' = d := by
  unfold checked
  cases d.problem? with
  | none => simp [eq_comm]
  | some cause => simp

theorem validated_eq_ok : d.validated = .ok d' ↔ d.problem? = none ∧ d' = d := by
  rw [validated, mapError_eq_ok, checked_eq_ok]

theorem mem_wallSet {s : Wall} {walls : List Wall} : s ∈ wallSet walls ↔ s ∈ walls := by
  -- what is in the set after some walls were put into it one by one
  have hfold : ∀ walls set : List Wall,
      s ∈ walls.foldl (fun set w => insertInOrder Wall.before w set) set ↔ s ∈ set ∨ s ∈ walls := by
    intro walls
    induction walls with
    | nil => simp
    | cons w rest ih =>
      intro set
      rw [List.foldl_cons, ih, mem_insertInOrder, List.mem_cons, or_comm (a := s = w), or_assoc]
  rw [wallSet, hfold]
  simp

end Description

namespace World

variable {w after : World} {c : Cell} {n : Nat} {entries : List (Cell × Nat)} {e : Cell × Nat}

/-! ### Walls and beepers of a layout -/

/-- A side is stored if its cell is in the grid and the wall was given, from either cell. -/
theorem mem_bothSides {width height : Int} {s : Wall} {walls : List Wall} :
    s ∈ bothSides width height walls ↔
      Description.inside width height s.cell ∧ (s ∈ walls ∨ s.flip ∈ walls) := by
  have hflip (a : Wall) : s = a.flip ↔ a = s.flip := by
    constructor
    · rintro rfl
      exact (Wall.flip_flip a).symm
    · rintro rfl
      exact (Wall.flip_flip s).symm
  simp only [bothSides, Description.mem_wallSet, List.mem_flatMap, wallSides, List.mem_filter,
    List.mem_cons, List.not_mem_nil, or_false]
  constructor
  · rintro ⟨a, ha, rfl | hs, hin⟩
    · exact ⟨hin, .inl ha⟩
    · exact ⟨hin, .inr ((hflip a).1 hs ▸ ha)⟩
  · rintro ⟨hin, ha | ha⟩
    · exact ⟨s, ha, .inl rfl, hin⟩
    · exact ⟨s.flip, ha, .inr ((hflip s.flip).2 rfl), hin⟩

/-- An entry after some beepers were added is that of the cell, with at least these, or an old one. -/
theorem of_mem_addCount (h : e ∈ addCount c n entries) : (e.1 = c ∧ n ≤ e.2) ∨ e ∈ entries := by
  induction entries with
  | nil =>
    obtain rfl : e = (c, n) := by simpa [addCount] using h
    exact .inl ⟨rfl, Nat.le_refl n⟩
  | cons first rest ih =>
    obtain ⟨d, m⟩ := first
    rw [addCount] at h
    split at h
    · rename_i hcd
      rcases List.mem_cons.1 h with rfl | hrest
      · exact .inl ⟨hcd.symm, Nat.le_add_left n m⟩
      · exact .inr (List.mem_cons_of_mem _ hrest)
    · split at h
      · rcases List.mem_cons.1 h with rfl | hold
        · exact .inl ⟨rfl, Nat.le_refl n⟩
        · exact .inr hold
      · rcases List.mem_cons.1 h with rfl | hrest
        · exact .inr List.mem_cons_self
        · exact (ih hrest).imp_right (List.mem_cons_of_mem _)

/-- An entry after a beeper was taken is an old one, or still has beepers on a cell that had some. -/
theorem of_mem_removeOne (h : e ∈ removeOne c entries) :
    e ∈ entries ∨ (0 < e.2 ∧ ∃ m, (e.1, m) ∈ entries) := by
  induction entries with
  | nil => simp [removeOne] at h
  | cons first rest ih =>
    obtain ⟨d, m⟩ := first
    rw [removeOne] at h
    split at h
    · split at h
      · exact .inl (List.mem_cons_of_mem _ h)
      · rcases List.mem_cons.1 h with rfl | hrest
        · refine .inr ⟨?_, m, List.mem_cons_self⟩
          show 0 < m - 1
          omega
        · exact .inl (List.mem_cons_of_mem _ hrest)
    · rcases List.mem_cons.1 h with rfl | hrest
      · exact .inl List.mem_cons_self
      · refine (ih hrest).imp (List.mem_cons_of_mem _) ?_
        rintro ⟨hpos, m', hm'⟩
        exact ⟨hpos, m', List.mem_cons_of_mem _ hm'⟩

theorem of_mem_positiveCounts {given : List (Cell × Int)} (h : e ∈ positiveCounts given) :
    0 < e.2 ∧ ∃ m, (e.1, m) ∈ given := by
  have hfold : ∀ (given : List (Cell × Int)) (counts : List (Cell × Nat)),
      e ∈ given.foldl (fun counts e => if 0 < e.2 then addCount e.1 e.2.toNat counts else counts)
        counts → e ∈ counts ∨ (0 < e.2 ∧ ∃ m, (e.1, m) ∈ given) := by
    intro given
    induction given with
    | nil =>
      intro counts hmem
      exact .inl hmem
    | cons first rest ih =>
      intro counts hmem
      rw [List.foldl_cons] at hmem
      rcases ih _ hmem with hcounts | ⟨hpos, m, hm⟩
      · by_cases hfirst : 0 < first.2
        · rw [if_pos hfirst] at hcounts
          rcases of_mem_addCount hcounts with ⟨hcell, hle⟩ | hold
          · refine .inr ⟨by omega, first.2, ?_⟩
            rw [hcell]
            exact List.mem_cons_self
          · exact .inl hold
        · rw [if_neg hfirst] at hcounts
          exact .inl hcounts
      · exact .inr ⟨hpos, m, List.mem_cons_of_mem _ hm⟩
  rcases hfold given [] h with hnil | hgiven
  · simp at hnil
  · exact hgiven

/-! ### Valid worlds -/

/-- What every world is like. -/
structure Valid (w : World) : Prop where
  width_pos : 0 < w.width
  height_pos : 0 < w.height
  robot_inside : w.inside w.robot.cell
  beepers_inside : ∀ e ∈ w.beepers, w.inside e.1 ∧ 0 < e.2
  /-- The bag, counted in integers as in a layout. -/
  bag_nonneg : ∀ n ∈ w.snapshot.bag, 0 ≤ n
  walls_inside : ∀ s ∈ w.walls, w.inside s.cell
  /-- A wall between two cells of the grid is stored for both. -/
  walls_flip : ∀ s : Wall, w.inside s.cell → w.inside s.flip.cell → (s ∈ w.walls ↔ s.flip ∈ w.walls)

theorem snapshot_bag_nonneg (w : World) : ∀ n ∈ w.snapshot.bag, 0 ≤ n := by
  intro n hn
  obtain ⟨m, _, rfl⟩ := Option.map_eq_some_iff.1 hn
  exact Int.natCast_nonneg m

theorem ofDescription_eq_ok {d : Description} : ofDescription d = .ok w ↔
    d.problem? = none ∧ w = {
      width := d.width
      height := d.height
      robot := d.robot
      walls := bothSides d.width d.height d.walls
      beepers := positiveCounts d.beepers
      bag := d.bag.map Int.toNat } := by
  unfold ofDescription
  cases hc : d.validated with
  | error e =>
    have hproblem : d.problem? ≠ none := by
      intro hnone
      rw [Description.validated_eq_ok.2 ⟨hnone, rfl⟩] at hc
      cases hc
    simp [hproblem, bind, Except.bind]
  | ok d' =>
    obtain ⟨hnone, rfl⟩ := Description.validated_eq_ok.1 hc
    simp [hnone, bind, Except.bind, eq_comm]

/-- The world of a layout is valid, whatever walls the layout has. -/
theorem ofDescription_valid {d : Description} (h : ofDescription d = .ok w) : w.Valid := by
  obtain ⟨hnone, rfl⟩ := ofDescription_eq_ok.1 h
  obtain ⟨⟨hwidth, hheight⟩, hrobot, hbeepers, _⟩ := Description.problem?_eq_none.1 hnone
  refine ⟨hwidth, hheight, hrobot, ?_, snapshot_bag_nonneg _, ?_, ?_⟩
  · intro e he
    obtain ⟨hpos, m, hm⟩ := of_mem_positiveCounts he
    exact ⟨(hbeepers _ hm).1, hpos⟩
  · intro s hs
    exact (mem_bothSides.1 hs).1
  · intro s hs hflip
    show s ∈ bothSides _ _ _ ↔ s.flip ∈ bothSides _ _ _
    rw [mem_bothSides, mem_bothSides, Wall.flip_flip]
    have hin : Description.inside d.width d.height s.cell = true := hs
    have hin' : Description.inside d.width d.height s.flip.cell = true := hflip
    rw [hin, hin']
    exact and_congr_right fun _ => or_comm

theorem ofDescription_bag {d : Description} (h : ofDescription d = .ok w) :
    w.snapshot.bag = d.bag := by
  obtain ⟨hnone, rfl⟩ := ofDescription_eq_ok.1 h
  obtain ⟨_, _, _, hbag⟩ := Description.problem?_eq_none.1 hnone
  cases hd : d.bag with
  | none => rfl
  | some n =>
    have hn : 0 ≤ n := hbag n (by simp [hd])
    simp [snapshot, Int.toNat_of_nonneg hn]

/-! ### One part after the other -/

theorem run_forM_modify {α : Type} (f : World → α → World) (l : List α) (w : World) :
    (((l.forM fun a => modify fun w => f w a) : ExceptT LayoutError (StateM World) Unit).run).run w =
      (.ok (), l.foldl f w) := by
  induction l generalizing w with
  | nil => rfl
  | cons a rest ih => exact ih (f w a)

/-- Walls that are added one by one are stored on both sides. -/
theorem foldl_addWall (walls : List Wall) (w : World) : walls.foldl addWall w =
    { w with
      walls := (walls.flatMap (wallSides w.width w.height)).foldl
        (fun set side => insertInOrder Wall.before side set) w.walls } := by
  induction walls generalizing w with
  | nil => rfl
  | cons wall rest ih =>
    rw [List.foldl_cons, ih, List.flatMap_cons, List.foldl_append]
    rfl

/-- The parts, put together, are the world of the layout; where something is wrong with the layout
nothing is changed. -/
theorem reset_eq (w : World) (d : Description) : w.reset d =
    match ofDescription d with
    | .ok fresh => (.ok (), fresh)
    | .error e => (.error e, w) := by
  unfold ofDescription
  cases hvalidated : d.validated with
  | error e =>
    show (resetting d).run.run w = (.error e, w)
    simp only [resetting, hvalidated]
    rfl
  | ok d' =>
    obtain ⟨-, rfl⟩ := Description.validated_eq_ok.1 hvalidated
    show (resetting d').run.run w = _
    simp only [resetting, hvalidated]
    refine (run_forM_modify addWall d'.walls _).trans ?_
    rw [foldl_addWall]
    rfl

/-- A world that is laid out anew is the world of the layout, or it is as it was. -/
theorem reset_cases (w : World) (d : Description) :
    ofDescription d = .ok (w.reset d).2 ∨ (w.reset d).2 = w := by
  rw [reset_eq]
  cases ofDescription d with
  | ok fresh => exact .inl rfl
  | error e => exact .inr rfl

/-! ### Actions -/

/-- What an action adds to the bag. -/
def bagChange : Action → Int
  | .putBeeper => -1
  | .pickBeeper => 1
  | _ => 0

/-- Everything that an action can do to a world. -/
theorem perform_eq_ok {a : Action} (h : w.perform a = .ok after) :
    ∃ robot beepers bag, after = { w with robot := robot, beepers := beepers, bag := bag } ∧
      (robot.cell = w.robot.cell ∨
        (w.isClear w.robot.facing = true ∧ robot.cell = w.robot.cell.step w.robot.facing)) ∧
      (beepers = w.beepers ∨ beepers = addCount w.robot.cell 1 w.beepers ∨
        beepers = removeOne w.robot.cell w.beepers) ∧
      bag.map Int.ofNat = w.snapshot.bag.map (· + bagChange a) := by
  have hkept : w.bag.map Int.ofNat = w.snapshot.bag.map (· + 0) := by
    cases hb : w.bag <;> simp [snapshot, hb]
  cases a with
  | move =>
    simp only [perform, move] at h
    split at h
    · rename_i hclear
      cases h
      exact ⟨_, _, _, rfl, .inr ⟨hclear, rfl⟩, .inl rfl, hkept⟩
    · cases h
  | turnLeft =>
    cases h
    exact ⟨_, _, _, rfl, .inl rfl, .inl rfl, hkept⟩
  | turnRight =>
    cases h
    exact ⟨_, _, _, rfl, .inl rfl, .inl rfl, hkept⟩
  | putBeeper =>
    simp only [perform, putBeeper] at h
    split at h
    · rename_i hbag
      cases h
      refine ⟨_, _, _, rfl, .inl rfl, .inr (.inl rfl), ?_⟩
      cases hb : w.bag with
      | none => simp [snapshot, hb]
      | some n =>
        -- a beeper is put only if there is one, so nothing is taken from zero
        have hn : 0 < n := by simpa [bagHasBeeper, hb] using hbag
        have hsub : ((n - 1 : Nat) : Int) = (n : Int) + -1 := by omega
        simp [snapshot, hb, bagChange, hsub]
    · cases h
  | pickBeeper =>
    simp only [perform, pickBeeper] at h
    split at h
    · cases h
      refine ⟨_, _, _, rfl, .inl rfl, .inr (.inr rfl), ?_⟩
      cases hb : w.bag with
      | none => simp [snapshot, hb]
      | some n => simp [snapshot, hb, bagChange]
    · cases h

theorem inside_of_isClear {d : Direction} (h : w.isClear d) : w.inside (w.robot.cell.step d) := by
  have hwall : w.hasWall w.robot.cell d = false := by simpa [isClear] using h
  rw [hasWall, Bool.or_eq_false_iff] at hwall
  simpa using hwall.2

/-- An action leaves a world valid: the robot stays inside because it moves only where no wall and no
end of the grid is, and the other parts are on cells that were inside before. -/
theorem perform_valid {a : Action} (hw : w.Valid) (h : w.perform a = .ok after) : after.Valid := by
  obtain ⟨robot, beepers, bag, rfl, hrobot, hbeepers, _⟩ := perform_eq_ok h
  refine ⟨hw.width_pos, hw.height_pos, ?_, ?_, snapshot_bag_nonneg _, hw.walls_inside,
    hw.walls_flip⟩
  · show w.inside robot.cell
    rcases hrobot with hcell | ⟨hclear, hcell⟩
    · rw [hcell]
      exact hw.robot_inside
    · rw [hcell]
      exact inside_of_isClear hclear
  · intro e he
    show w.inside e.1 ∧ 0 < e.2
    rcases hbeepers with rfl | rfl | rfl
    · exact hw.beepers_inside e he
    · rcases of_mem_addCount he with ⟨hcell, hle⟩ | hold
      · rw [hcell]
        exact ⟨hw.robot_inside, hle⟩
      · exact hw.beepers_inside e hold
    · rcases of_mem_removeOne he with hold | ⟨hpos, m, hm⟩
      · exact hw.beepers_inside e hold
      · exact ⟨(hw.beepers_inside _ hm).1, hpos⟩

/-! ### Rows of changes -/

/-- What can be done to a world. -/
inductive Change where
  | act (a : Action)
  | reset (d : Description)
  deriving Repr, DecidableEq

/-- A world after a change; one that is refused leaves it as it was. -/
def change (w : World) : Change → World
  | .act a => (w.act a none).2
  | .reset d => (w.reset d).2

/-- A world after some changes, one after the other. -/
def through (w : World) (changes : List Change) : World :=
  changes.foldl change w

theorem act_eq (w : World) (a : Action) :
    (w.act a none).2 = w ∨ w.perform a = .ok (w.act a none).2 := by
  cases hperform : w.perform a with
  | ok after =>
    right
    simp [act, hperform]
  | error kind =>
    left
    simp [act, hperform]

theorem change_valid (hw : w.Valid) (x : Change) : (w.change x).Valid := by
  cases x with
  | act a =>
    show (w.act a none).2.Valid
    rcases act_eq w a with hsame | hperform
    · rw [hsame]
      exact hw
    · exact perform_valid hw hperform
  | reset d =>
    show (w.reset d).2.Valid
    rcases reset_cases w d with hfresh | hsame
    · exact ofDescription_valid hfresh
    · rw [hsame]
      exact hw

theorem through_valid (hw : w.Valid) (changes : List Change) : (w.through changes).Valid := by
  induction changes generalizing w with
  | nil => exact hw
  | cons x rest ih => exact ih (change_valid hw x)

/-- The size, the walls and whether the bag is endless are the same in two worlds. -/
structure SameGrid (w after : World) : Prop where
  width : after.width = w.width
  height : after.height = w.height
  walls : after.walls = w.walls
  endless : after.bag = none ↔ w.bag = none

theorem act_sameGrid (w : World) (a : Action) : w.SameGrid (w.act a none).2 := by
  rcases act_eq w a with hsame | hperform
  · rw [hsame]
    exact ⟨rfl, rfl, rfl, Iff.rfl⟩
  · obtain ⟨robot, beepers, bag, hafter, _, _, hbag⟩ := perform_eq_ok hperform
    rw [hafter]
    refine ⟨rfl, rfl, rfl, ?_⟩
    show bag = none ↔ w.bag = none
    rw [← Option.map_eq_none_iff (f := Int.ofNat), hbag]
    simp [snapshot]

theorem SameGrid.trans {w' w'' : World} (h : w.SameGrid w') (h' : w'.SameGrid w'') :
    w.SameGrid w'' where
  width := h'.width.trans h.width
  height := h'.height.trans h.height
  walls := h'.walls.trans h.walls
  endless := h'.endless.trans h.endless

/-- Actions change neither the size nor the walls, and an endless bag stays endless. -/
theorem through_sameGrid (w : World) (actions : List Action) :
    w.SameGrid (w.through (actions.map .act)) := by
  induction actions generalizing w with
  | nil => exact ⟨rfl, rfl, rfl, Iff.rfl⟩
  | cons a rest ih => exact (act_sameGrid w a).trans (ih _)

theorem Valid.hasWall_flip (hw : w.Valid) {d : Direction} (hc : w.inside c)
    (hstep : w.inside (c.step d)) : w.hasWall c d = w.hasWall (c.step d) d.opposite := by
  have hwall := hw.walls_flip ⟨c, d⟩ hc hstep
  have hback : w.inside ((c.step d).step d.opposite) = true := by rwa [Cell.step_opposite]
  simp only [hasWall, hstep, hback, Bool.not_true, Bool.or_false]
  exact Bool.eq_iff_iff.2 (by simpa [Wall.flip] using hwall)

/-- Whatever is done in a world that came from a layout, it stays valid, and a wall between two cells
is met from both of them. Until the next layout its size and its walls stay the same, an endless bag
stays endless, and any other bag counts from that of the layout what is put and picked. -/
theorem valid_through {d : Description} (h : ofDescription d = .ok w) (changes : List Change) :
    w.snapshot.bag = d.bag ∧ (w.through changes).Valid ∧
      (∀ c side, (w.through changes).inside c → (w.through changes).inside (c.step side) →
        (w.through changes).hasWall c side =
          (w.through changes).hasWall (c.step side) side.opposite) ∧
      (∀ actions : List Action,
        (w.through changes).SameGrid ((w.through changes).through (actions.map .act))) ∧
      ∀ a after, (w.through changes).perform a = .ok after →
        after.snapshot.bag = (w.through changes).snapshot.bag.map (· + bagChange a) := by
  have hvalid := through_valid (ofDescription_valid h) changes
  refine ⟨ofDescription_bag h, hvalid, ?_, through_sameGrid _, ?_⟩
  · intro c side hc hstep
    exact hvalid.hasWall_flip hc hstep
  · intro a after hperform
    obtain ⟨robot, beepers, bag, rfl, _, _, hbag⟩ := perform_eq_ok hperform
    exact hbag

/-- A room whose walls are given from one side, from beyond the end of the grid, at its end, and out
of the grid altogether. -/
def room : Description :=
  ⟨3, 2, ⟨⟨1, 0⟩, .north⟩, [⟨⟨0, 0⟩, .east⟩, ⟨⟨3, 1⟩, .west⟩, ⟨⟨2, 0⟩, .south⟩, ⟨⟨9, 9⟩, .north⟩],
    [(⟨2, 1⟩, 0), (⟨1, 0⟩, 2)], some 1⟩

/-- The world of that room. -/
def roomWorld : World :=
  ⟨3, 2, ⟨⟨1, 0⟩, .north⟩, [⟨⟨0, 0⟩, .east⟩, ⟨⟨1, 0⟩, .west⟩, ⟨⟨2, 0⟩, .south⟩, ⟨⟨2, 1⟩, .east⟩],
    [(⟨1, 0⟩, 2)], some 1⟩

/-- Changes of which some are refused: a step against the end of the grid, and a layout without
cells. -/
def roomChanges : List Change :=
  [.act .pickBeeper, .act .move, .act .move, .act .putBeeper, .reset { room with width := 0 },
    .act .turnLeft, .act .move]

theorem valid_through_room :
    ofDescription room = .ok roomWorld ∧
      (roomWorld.through roomChanges).robot = ⟨⟨0, 1⟩, .west⟩ ∧ roomWorld.snapshot.bag = room.bag ∧
      (roomWorld.through roomChanges).Valid ∧
      (∀ c side, (roomWorld.through roomChanges).inside c →
        (roomWorld.through roomChanges).inside (c.step side) →
        (roomWorld.through roomChanges).hasWall c side =
          (roomWorld.through roomChanges).hasWall (c.step side) side.opposite) ∧
      (∀ actions : List Action, (roomWorld.through roomChanges).SameGrid
        ((roomWorld.through roomChanges).through (actions.map .act))) ∧
      ∀ a after, (roomWorld.through roomChanges).perform a = .ok after →
        after.snapshot.bag = (roomWorld.through roomChanges).snapshot.bag.map (· + bagChange a) := by
  have h : ofDescription room = .ok roomWorld := rfl
  exact ⟨h, by decide, valid_through h roomChanges⟩

end World

end GridRobot
