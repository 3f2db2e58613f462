import GridRobot.Proofs.Text.Numeral
import GridRobot.Proofs.World.Action
import GridRobot.Proofs.World.Flawed
import GridRobot.Proofs.World.Ordered

/-!
# Laying a world out anew

A world is laid out anew part by part, but only after the whole layout was found to be that of a world.
So a layout with a flaw leaves the world as it was, and any other one leaves nothing of it: what is to
be seen afterwards is the normal form of the layout. A layout that was taken from a world is its own
normal form, and gives that world back.

Where a flaw cannot be told, laying out breaks off, and the world is as it was all the same.

## Main definitions

* `Description.NormalForm` says which layout has the same size, robot and bag, no cells without beepers
  among its entries, and each wall on both sides.

## Main statements

* `World.ofDescription_normalForm`: what is to be seen of that world is the normal form of the layout.
* `Description.NormalForm.unique`, `Description.NormalForm.self`: there is one normal form, and it is its
  own.
* `World.Valid.ofDescription_snapshot`: what is to be seen of a world is enough to make it again.
* `World.reached_iff`: so the valid worlds in order are those that there may be.
* `World.reset_normalizes`: all of this for `World.reset`.
* `World.reset_strayed`: a flaw that is not told.
-/

namespace GridRobot

/-! ### Normal forms -/

namespace Description

/-- Each cell has at most one beeper entry. -/
def EachOnce (d : Description) : Prop :=
  (d.beepers.map Prod.fst).Nodup

/-- The layout `n` is the normal form of `d`. -/
structure NormalForm (d n : Description) : Prop where
  width : n.width = d.width
  height : n.height = d.height
  robot : n.robot = d.robot
  bag : n.bag = d.bag
  beepers : ∀ e, e ∈ n.beepers ↔ e ∈ d.beepers ∧ 0 < e.2
  /-- A wall is there if its cell is in the grid and it was given, from either side. -/
  walls : ∀ s : Wall, s ∈ n.walls ↔
    inside d.width d.height s.cell ∧ (s ∈ d.walls ∨ s.flip ∈ d.walls)
  beepers_ordered : n.beepers.Pairwise EntryPrecedes
  walls_ordered : n.walls.Pairwise Wall.Precedes

variable {d n m : Description}

/-- There is one normal form. -/
theorem NormalForm.unique (h : d.NormalForm n) (h' : d.NormalForm m) : m = n := by
  obtain ⟨width, height, robot, walls, beepers, bag⟩ := n
  obtain ⟨width', height', robot', walls', beepers', bag'⟩ := m
  have hbeepers : beepers' = beepers := h'.beepers_ordered.eq_of_mem_iff h.beepers_ordered fun e =>
    (h'.beepers e).trans (h.beepers e).symm
  have hwalls : walls' = walls := h'.walls_ordered.eq_of_mem_iff h.walls_ordered fun s =>
    (h'.walls s).trans (h.walls s).symm
  rw [mk.injEq]
  exact ⟨h'.width.trans h.width.symm, h'.height.trans h.height.symm, h'.robot.trans h.robot.symm,
    hwalls, hbeepers, h'.bag.trans h.bag.symm⟩

/-- A normal form is its own. -/
theorem NormalForm.self (h : d.NormalForm n) : n.NormalForm n where
  width := rfl
  height := rfl
  robot := rfl
  bag := rfl
  beepers e := ⟨fun he => ⟨he, ((h.beepers e).1 he).2⟩, And.left⟩
  walls s := by
    rw [h.width, h.height]
    constructor
    · exact fun hs => ⟨((h.walls s).1 hs).1, .inl hs⟩
    · rintro ⟨hin, hs | hs⟩
      · exact hs
      · -- the wall was given from one side or the other, so seen from here it was given as well
        have hgiven := ((h.walls s.flip).1 hs).2
        rw [Wall.flip_flip] at hgiven
        exact (h.walls s).2 ⟨hin, hgiven.symm⟩
  beepers_ordered := h.beepers_ordered
  walls_ordered := h.walls_ordered

end Description

namespace World

variable {w fresh : World} {d : Description} {c : Cell} {n : Nat}

/-! ### What is to be seen of the world of a layout -/

/-- Where each cell has one entry, the beepers of a cell are those of its entry. -/
theorem countIn_positiveCounts {given : List (Cell × Int)} (h : (given.map Prod.fst).Nodup) :
    countIn (positiveCounts given) c = (Description.countIn given c).toNat := by
  have hfold : ∀ (given : List (Cell × Int)) (counts : List (Cell × Nat)),
      (given.map Prod.fst).Nodup → counts.Pairwise EntryPrecedes →
        countIn (given.foldl (fun counts e =>
          if 0 < e.2 then addCount e.1 e.2.toNat counts else counts) counts) c =
            countIn counts c + (Description.countIn given c).toNat := by
    intro given
    induction given with
    | nil => exact fun _ _ _ => rfl
    | cons first rest ih =>
      obtain ⟨d, m⟩ := first
      intro counts hnodup hcounts
      rw [List.map_cons, List.nodup_cons] at hnodup
      -- the cell of the first entry has no other one
      have hrest : d = c → Description.countIn rest c = 0 := by
        rintro rfl
        exact Description.countIn_eq_zero hnodup.1
      rw [List.foldl_cons, Description.countIn]
      by_cases hm : 0 < m
      · rw [if_pos hm, ih _ hnodup.2 (pairwise_addCount hcounts), countIn_addCount hcounts]
        by_cases hd : d = c
        · simp [hd, hrest hd]
        · simp [hd]
      · rw [if_neg hm, ih _ hnodup.2 hcounts]
        by_cases hd : d = c
        · simp only [hd, if_true, hrest hd]
          omega
        · simp [hd]
  exact (hfold given [] h List.Pairwise.nil).trans (Nat.zero_add _)

theorem mem_positiveCounts {given : List (Cell × Int)} (h : (given.map Prod.fst).Nodup) :
    (c, n) ∈ positiveCounts given ↔ 0 < n ∧ (c, (n : Int)) ∈ given := by
  rw [mem_iff_countIn (pairwise_positiveCounts given) (fun _ he => (of_mem_positiveCounts he).1),
    countIn_positiveCounts h, Description.mem_iff_countIn h]
  refine and_congr_right fun hn => ⟨fun hcount => ⟨?_, by omega⟩, fun hmem => by omega⟩
  by_contra hnone
  rw [Description.countIn_eq_zero hnone] at hcount
  omega

theorem mem_snapshot_beepers {e : Cell × Int} :
    e ∈ w.snapshot.beepers ↔ ∃ n : Nat, (e.1, n) ∈ w.beepers ∧ (n : Int) = e.2 := by
  obtain ⟨c, k⟩ := e
  simp only [snapshot, List.mem_map, Prod.mk.injEq, Prod.exists]
  constructor
  · rintro ⟨c', n, hmem, rfl, rfl⟩
    exact ⟨n, hmem, rfl⟩
  · rintro ⟨n, hmem, rfl⟩
    exact ⟨c, n, hmem, rfl, rfl⟩

theorem pairwise_snapshot_beepers (h : w.beepers.Pairwise EntryPrecedes) :
    w.snapshot.beepers.Pairwise EntryPrecedes :=
  h.map _ fun _ _ hef => hef

/-- What is to be seen of the world of a layout is the normal form of the layout. -/
theorem ofDescription_normalForm (hd : d.EachOnce) (h : ofDescription d = .ok w) :
    d.NormalForm w.snapshot := by
  have hordered := ofDescription_ordered h
  have hbag := ofDescription_bag h
  obtain ⟨-, rfl⟩ := ofDescription_eq_ok.1 h
  refine ⟨rfl, rfl, rfl, hbag, fun e => ?_, fun s => mem_bothSides,
    pairwise_snapshot_beepers hordered.beepers, hordered.walls⟩
  simp only [mem_snapshot_beepers, mem_positiveCounts hd]
  constructor
  · rintro ⟨n, ⟨hn, hmem⟩, heq⟩
    rw [heq] at hmem
    exact ⟨hmem, by omega⟩
  · rintro ⟨hmem, hpos⟩
    have hcast : (e.2.toNat : Int) = e.2 := by omega
    exact ⟨e.2.toNat, ⟨by omega, by rwa [hcast]⟩, hcast⟩

/-! ### Back from what is to be seen -/

/-- A world is determined by what is to be seen of it. -/
theorem snapshot_injective (h : fresh.snapshot = w.snapshot) : fresh = w := by
  have hbeepers := beepers_of_snapshot h
  have hbag : fresh.bag.map Int.ofNat = w.bag.map Int.ofNat := congrArg Description.bag h
  obtain ⟨width, height, robot, walls, beepers, bag⟩ := fresh
  obtain ⟨width', height', robot', walls', beepers', bag'⟩ := w
  rw [mk.injEq]
  exact ⟨congrArg Description.width h, congrArg Description.height h, congrArg Description.robot h,
    congrArg Description.walls h, hbeepers,
    Option.map_injective (fun _ _ => Int.ofNat.inj) hbag⟩

theorem Ordered.snapshot_eachOnce (h : w.Ordered) : w.snapshot.EachOnce := by
  have hcells : (w.snapshot.beepers.map Prod.fst).Pairwise fun c d => c.before d = true :=
    (pairwise_snapshot_beepers h.beepers).map _ fun _ _ hef => hef
  refine hcells.imp ?_
  rintro c _ hbefore rfl
  exact Cell.not_before_self c hbefore

/-- What is to be seen of a valid world has no flaw. -/
theorem Valid.snapshot_problem? (h : w.Valid) : w.snapshot.problem? = none := by
  refine Description.problem?_eq_none.2
    ⟨⟨h.width_pos, h.height_pos⟩, h.robot_inside, fun e he => ?_, h.bag_nonneg⟩
  obtain ⟨n, hmem, heq⟩ := mem_snapshot_beepers.1 he
  exact ⟨(h.beepers_inside _ hmem).1, by omega⟩

/-- What is to be seen of a valid world in order is its own normal form. -/
theorem Ordered.snapshot_normalForm (h : w.Ordered) (hvalid : w.Valid) :
    w.snapshot.NormalForm w.snapshot where
  width := rfl
  height := rfl
  robot := rfl
  bag := rfl
  beepers e := by
    refine ⟨fun he => ⟨he, ?_⟩, And.left⟩
    obtain ⟨n, hmem, heq⟩ := mem_snapshot_beepers.1 he
    have hpos := (hvalid.beepers_inside _ hmem).2
    omega
  walls s := by
    constructor
    · exact fun hs => ⟨hvalid.walls_inside s hs, .inl hs⟩
    · rintro ⟨hin, hs | hs⟩
      · exact hs
      · exact (hvalid.walls_flip s hin (hvalid.walls_inside _ hs)).2 hs
  beepers_ordered := pairwise_snapshot_beepers h.beepers
  walls_ordered := h.walls

/-- What is to be seen of a world is enough to make it again. -/
theorem Valid.ofDescription_snapshot (hvalid : w.Valid) (h : w.Ordered) :
    ofDescription w.snapshot = .ok w := by
  have hmade := ofDescription_eq_ok.2 ⟨hvalid.snapshot_problem?, rfl⟩
  have hnormal := ofDescription_normalForm h.snapshot_eachOnce hmade
  rw [hmade, snapshot_injective ((h.snapshot_normalForm hvalid).unique hnormal)]

/-- The worlds that there may be are the valid ones that are in order. -/
theorem reached_iff : w.Reached ↔ w.Valid ∧ w.Ordered :=
  ⟨fun h => ⟨h.valid, h.ordered⟩, fun h => .of_description (h.1.ofDescription_snapshot h.2)⟩

/-! ### Laying out anew -/

theorem ofDescription_eq_error {e : LayoutError} : ofDescription d = .error e ↔
    ∃ c, d.problem? = some c ∧ LayoutError.ofFormat ⟨c, none⟩ = e := by
  unfold ofDescription Description.validated Description.checked
  cases d.problem? with
  | none => simp [mapError_ok, ok_bind]
  | some c => simp [mapError_error, bind, Except.bind]

/-- There is no world of a layout exactly where it has a flaw. -/
theorem ofDescription_flawed : (∃ e, ofDescription d = .error e) ↔ d.Flawed := by
  simp only [ofDescription_eq_error, Description.flawed_iff, Option.ne_none_iff_exists']
  exact ⟨fun ⟨_, c, hc, _⟩ => ⟨c, hc⟩, fun ⟨c, hc⟩ => ⟨_, c, hc, rfl⟩⟩

/-- Telling that there is no world breaks off exactly where the flaw cannot be told. -/
theorem ofDescription_eq_broken {b : Breakdown} :
    ofDescription d = .error (.broken b) ↔ b = .badNumber ∧ d.Untellable := by
  simp only [ofDescription_eq_error, LayoutError.ofFormat_eq_broken, Description.untellable_iff]
  constructor
  · rintro ⟨c, hc, hunwritable, rfl⟩
    exact ⟨rfl, c, hc, hunwritable⟩
  · rintro ⟨rfl, c, hc, hunwritable⟩
    exact ⟨c, hc, hunwritable, rfl⟩

/-- Any other flaw is told as such. -/
theorem ofDescription_eq_format :
    (∃ e, ofDescription d = .error (.format e)) ↔ d.Flawed ∧ ¬ d.Untellable := by
  rw [← ofDescription_flawed]
  constructor
  · rintro ⟨e, he⟩
    refine ⟨⟨_, he⟩, fun h => ?_⟩
    rw [ofDescription_eq_broken.2 ⟨rfl, h⟩] at he
    cases he
  · rintro ⟨⟨e, he⟩, htellable⟩
    cases e with
    | format e => exact ⟨e, he⟩
    | broken b => exact absurd (ofDescription_eq_broken.1 he).2 htellable

/-- A layout is refused exactly where it has a flaw, with a format error unless the flaw cannot be told,
and then the world is as it was. Any other layout is what the world looks like afterwards, up to normal
form, whatever the world was before. The normal form is its own normal form, and so what is to be seen of
a world `w` makes any other world equal to it, and makes it again from nothing. -/
theorem reset_normalizes (hw : w.Reached) (v : World) (hd : d.EachOnce) :
    ((∃ e, (v.reset d).1 = .error (.format e)) ↔ d.Flawed ∧ ¬ d.Untellable) ∧
      (∀ b, (v.reset d).1 = .error (.broken b) ↔ b = .badNumber ∧ d.Untellable) ∧
      (d.Untellable → d.Flawed) ∧
      (d.Flawed → (v.reset d).2 = v) ∧
      (¬ d.Flawed → (v.reset d).1 = .ok () ∧ d.NormalForm (v.reset d).2.snapshot ∧
        ∀ other : World, other.reset d = v.reset d) ∧
      (∀ n m, d.NormalForm n → (n.NormalForm m ↔ m = n)) ∧
      v.reset w.snapshot = (.ok (), w) ∧
      ∃ fresh, ofDescription w.snapshot = .ok fresh ∧ fresh.snapshot = w.snapshot := by
  have hanswer (e : LayoutError) : (v.reset d).1 = .error e ↔ ofDescription d = .error e := by
    rw [reset_eq]
    cases ofDescription d <;> simp
  have hagain := hw.valid.ofDescription_snapshot hw.ordered
  refine ⟨?_, fun b => ?_, Description.Untellable.flawed, fun hflawed => ?_, fun hsound => ?_,
    fun n m hn => ⟨fun hm => hn.self.unique hm, ?_⟩, ?_, w, hagain, rfl⟩
  · simp only [hanswer, ofDescription_eq_format]
  · rw [hanswer, ofDescription_eq_broken]
  · obtain ⟨e, he⟩ := ofDescription_flawed.2 hflawed
    rw [reset_eq, he]
  · cases hmade : ofDescription d with
    | error e => exact absurd (ofDescription_flawed.1 ⟨e, hmade⟩) hsound
    | ok fresh =>
      have hreset (other : World) : other.reset d = (.ok (), fresh) := by rw [reset_eq, hmade]
      rw [hreset]
      exact ⟨rfl, ofDescription_normalForm hd hmade, hreset⟩
  · rintro rfl
    exact hn.self
  · rw [reset_eq, hagain]

/-- A world of one cell, with beepers on it and an endless bag. -/
def yard : World :=
  ⟨1, 1, .home, [], [(⟨0, 0⟩, 3)], none⟩

/-- The layout of the room has walls from one side, at the end of the grid and out of it, and an entry
without beepers. A layout that was refused has left its world alone. -/
theorem reset_normalizes_room :
    (roomWorld.through roomChanges).Reached ∧ room.EachOnce ∧
      yard.reset room = (.ok (), roomWorld) ∧ room.NormalForm roomWorld.snapshot ∧
      (∃ e, (yard.reset { room with width := 0 }).1 = .error (.format e)) ∧
      (yard.reset { room with width := 0 }).2 = yard ∧
      yard.reset (roomWorld.through roomChanges).snapshot = (.ok (), roomWorld.through roomChanges) := by
  have hreached : (roomWorld.through roomChanges).Reached := ⟨room, roomWorld, roomChanges, rfl, rfl⟩
  have honce : room.EachOnce := by unfold Description.EachOnce; decide
  have hsound : ¬ room.Flawed := by simp [Description.flawed_iff, show room.problem? = none by decide]
  have hreset : yard.reset room = (.ok (), roomWorld) := by rw [reset_eq]; rfl
  obtain ⟨-, -, -, -, hnormal, -, hback, -⟩ := reset_normalizes hreached yard honce
  obtain ⟨hrefused, -, -, hkept, -⟩ :=
    reset_normalizes hreached yard (d := { room with width := 0 }) honce
  have hwidth : ({ room with width := 0 } : Description).Flawed := .width (by decide)
  have htellable : ¬ ({ room with width := 0 } : Description).Untellable := by
    have hproblem : ({ room with width := 0 } : Description).problem? =
        some (.sizeNotPositive 0 room.height) := rfl
    have hwritable : (FormatError.Cause.sizeNotPositive 0 room.height).isWritable = true := by
      decide +kernel
    simp [Description.untellable_iff, hproblem, hwritable]
  refine ⟨hreached, honce, hreset, ?_, hrefused.2 ⟨hwidth, htellable⟩, hkept hwidth, hback⟩
  have hroom := (hnormal hsound).2.1
  rwa [hreset] at hroom

/-- The least number that is too long to be written. -/
def tooFar : Int :=
  (Nat.pow 10 Text.maxDigits : Nat)

theorem tooFar_unwritable : Text.isWritable tooFar = false ∧ 1 ≤ tooFar := by
  have hpos (k : Nat) : 1 ≤ ((Nat.pow 10 k : Nat) : Int) := by
    have hnat : 0 < Nat.pow 10 k := Nat.pow_pos (by decide)
    omega
  refine ⟨?_, hpos Text.maxDigits⟩
  rw [← Bool.not_eq_true, Text.isWritable_iff, tooFar, Int.natAbs_natCast]
  exact lt_irrefl _

/-- The robot far outside of a world of one cell. -/
def strayed : Description :=
  ⟨1, 1, ⟨⟨tooFar, 0⟩, .east⟩, [], [], none⟩

/-- The layout with the robot far outside has a flaw, and no format error tells it. -/
theorem reset_strayed : strayed.EachOnce ∧ strayed.Flawed ∧
    yard.reset strayed = (.error (.broken .badNumber), yard) ∧
    ¬ ((∃ e, (yard.reset strayed).1 = .error (.format e)) ↔ strayed.Flawed) := by
  obtain ⟨hlong, hfar⟩ := tooFar_unwritable
  have houtside : ¬ Description.inside 1 1 ⟨tooFar, 0⟩ = true := by
    simp only [Description.inside, Bool.and_eq_true, decide_eq_true_eq]
    omega
  have huntellable : strayed.Untellable :=
    .robot (by decide) houtside fun h => Bool.false_ne_true (hlong.symm.trans h.1)
  have hreset : yard.reset strayed = (.error (.broken .badNumber), yard) := by
    rw [reset_eq, ofDescription_eq_broken.2 ⟨rfl, huntellable⟩]
  refine ⟨List.nodup_nil, huntellable.flawed, hreset, fun h => ?_⟩
  obtain ⟨e, he⟩ := h.2 huntellable.flawed
  rw [hreset] at he
  cases he

end World

end GridRobot
