import GridRobot.Proofs.World.Invariant
import Mathlib.Data.List.Sort

/-!
# Worlds are kept in order

A world keeps its walls in order and its beepers in order of their cells, each of them once. So a world
is determined by what can be seen of it: its size, its robot, its bag, its walls and how many beepers
are on each cell.

## Main definitions

* `World.Ordered` says that walls and beepers are in order.
* `World.Reached` says which worlds there may be.

## Main statements

* `pairwise_insertInOrder`: a wall that is put into an ordered list gets to its place.
* `World.countIn_addCount`, `World.countIn_removeOne`: a beeper is put on, or taken from, one cell only.
* `World.beepers_ext`: beepers are determined by how many are on each cell.
* `World.Reached.ordered`: every world that can be reached is in order.
-/

namespace GridRobot

/-! ### Two orders -/

theorem Cell.before_iff {a b : Cell} : a.before b = true ↔ a.x < b.x ∨ (a.x = b.x ∧ a.y < b.y) := by
  simp [before]

theorem Cell.before_trans {a b c : Cell} (hab : a.before b = true) (hbc : b.before c = true) :
    a.before c = true := by
  rw [before_iff] at *
  omega

theorem Cell.not_before_self (a : Cell) : a.before a ≠ true := by
  rw [Ne, before_iff]
  omega

theorem Cell.before_of_not {a b : Cell} (hne : a ≠ b) (hab : a.before b ≠ true) :
    b.before a = true := by
  obtain ⟨ax, ay⟩ := a
  obtain ⟨bx, bY⟩ := b
  simp only [Ne, Cell.mk.injEq, before_iff] at *
  omega

theorem Wall.before_iff {a b : Wall} : a.before b = true ↔
    a.cell.x < b.cell.x ∨ (a.cell.x = b.cell.x ∧ (a.cell.y < b.cell.y ∨
      (a.cell.y = b.cell.y ∧ a.side.rank < b.side.rank))) := by
  obtain ⟨⟨ax, ay⟩, as⟩ := a
  obtain ⟨⟨bx, bY⟩, bs⟩ := b
  simp only [before, Cell.before, Bool.or_eq_true, Bool.and_eq_true, decide_eq_true_eq, beq_iff_eq,
    Cell.mk.injEq]
  omega

theorem Direction.rank_injective {d e : Direction} (h : d.rank = e.rank) : d = e := by
  cases d <;> cases e <;> simp_all [rank]

theorem Wall.before_total {a b : Wall} (hab : a.before b ≠ true) (hba : b.before a ≠ true) :
    a = b := by
  rw [Ne, before_iff] at hab hba
  have hx : a.cell.x = b.cell.x := by omega
  have hy : a.cell.y = b.cell.y := by omega
  have hside : a.side = b.side := Direction.rank_injective (by omega)
  obtain ⟨⟨ax, ay⟩, as⟩ := a
  obtain ⟨⟨bx, bY⟩, bs⟩ := b
  simp_all

theorem Wall.before_trans {a b c : Wall} (hab : a.before b = true) (hbc : b.before c = true) :
    a.before c = true := by
  rw [before_iff] at *
  omega

theorem Wall.not_before_self (a : Wall) : a.before a ≠ true := by
  rw [Ne, before_iff]
  omega

/-- Walls in order. -/
def Wall.Precedes (a b : Wall) : Prop :=
  a.before b = true

instance : Std.Irrefl Wall.Precedes where
  irrefl := Wall.not_before_self

instance : Std.Antisymm Wall.Precedes where
  antisymm a _ hab hba := absurd (Wall.before_trans hab hba) (Wall.not_before_self a)

/-- Beeper entries in order of their cells, and no two of one cell. -/
def EntryPrecedes {β : Type} (e f : Cell × β) : Prop :=
  e.1.before f.1 = true

instance {β : Type} : Std.Irrefl (EntryPrecedes (β := β)) where
  irrefl e := Cell.not_before_self e.1

instance {β : Type} : Std.Antisymm (EntryPrecedes (β := β)) where
  antisymm e _ hef hfe := absurd (Cell.before_trans hef hfe) (Cell.not_before_self e.1)

/-! ### Walls -/

/-- A wall that is put into an ordered list gets to its place. -/
theorem pairwise_insertInOrder {a : Wall} {l : List Wall} (h : l.Pairwise Wall.Precedes) :
    (insertInOrder Wall.before a l).Pairwise Wall.Precedes := by
  induction l with
  | nil => exact List.pairwise_singleton _ _
  | cons b rest ih =>
    obtain ⟨hb, hrest⟩ := List.pairwise_cons.1 h
    rw [insertInOrder]
    split
    · exact h
    · rename_i hne
      split
      · rename_i hab
        refine List.pairwise_cons.2 ⟨fun c hc => ?_, h⟩
        rcases List.mem_cons.1 hc with rfl | hc
        · exact hab
        · exact Wall.before_trans hab (hb c hc)
      · rename_i hab
        refine List.pairwise_cons.2 ⟨fun c hc => ?_, ih hrest⟩
        rcases mem_insertInOrder.1 hc with rfl | hc
        · by_contra hba
          exact hne (Wall.before_total hab hba)
        · exact hb c hc

theorem Description.pairwise_wallSet (walls : List Wall) :
    (wallSet walls).Pairwise Wall.Precedes := by
  have hfold : ∀ walls set : List Wall, set.Pairwise Wall.Precedes →
      (walls.foldl (fun set w => insertInOrder Wall.before w set) set).Pairwise Wall.Precedes := by
    intro walls
    induction walls with
    | nil => exact fun _ h => h
    | cons w rest ih => exact fun set h => ih _ (pairwise_insertInOrder h)
  exact hfold walls [] List.Pairwise.nil

/-! ### Beepers -/

theorem Description.countIn_eq_zero {entries : List (Cell × Int)} {c : Cell}
    (h : c ∉ entries.map Prod.fst) : countIn entries c = 0 := by
  induction entries with
  | nil => rfl
  | cons e rest ih =>
    rw [List.map_cons, List.mem_cons, not_or] at h
    rw [countIn, if_neg (Ne.symm h.1), ih h.2]

/-- In entries that name each cell once, an entry is a cell that is named, with its count. -/
theorem Description.mem_iff_countIn {entries : List (Cell × Int)} {c : Cell} {n : Int}
    (h : (entries.map Prod.fst).Nodup) :
    (c, n) ∈ entries ↔ c ∈ entries.map Prod.fst ∧ countIn entries c = n := by
  induction entries with
  | nil => simp
  | cons e rest ih =>
    obtain ⟨cell, m⟩ := e
    rw [List.map_cons, List.nodup_cons] at h
    by_cases hcell : cell = c
    · subst hcell
      have hnot : (cell, n) ∉ rest := fun hmem => h.1 (List.mem_map.2 ⟨_, hmem, rfl⟩)
      simp [countIn, hnot, eq_comm]
    · have hne : (c, n) ≠ (cell, m) := fun heq => hcell (congrArg Prod.fst heq).symm
      rw [List.mem_cons, or_iff_right hne, ih h.2]
      simp [countIn, hcell, Ne.symm hcell]

namespace World

variable {w after : World} {c d : Cell} {n : Nat} {entries entries' : List (Cell × Nat)}

theorem pairwise_addCount (h : entries.Pairwise EntryPrecedes) :
    (addCount c n entries).Pairwise EntryPrecedes := by
  induction entries with
  | nil => exact List.pairwise_singleton _ _
  | cons first rest ih =>
    obtain ⟨d, m⟩ := first
    obtain ⟨hfirst, hrest⟩ := List.pairwise_cons.1 h
    rw [addCount]
    split
    · exact List.pairwise_cons.2 ⟨hfirst, hrest⟩
    · rename_i hne
      split
      · rename_i hcd
        refine List.pairwise_cons.2 ⟨fun e he => ?_, h⟩
        rcases List.mem_cons.1 he with rfl | he
        · exact hcd
        · exact Cell.before_trans hcd (hfirst e he)
      · rename_i hcd
        refine List.pairwise_cons.2 ⟨fun e he => ?_, ih hrest⟩
        rcases of_mem_addCount he with ⟨hcell, -⟩ | he
        · show d.before e.1 = true
          rw [hcell]
          exact Cell.before_of_not hne hcd
        · exact hfirst e he

/-- Taking a beeper takes an entry away, or changes its count. -/
theorem pairwise_removeOne (h : entries.Pairwise EntryPrecedes) :
    (removeOne c entries).Pairwise EntryPrecedes := by
  induction entries with
  | nil => exact List.Pairwise.nil
  | cons first rest ih =>
    obtain ⟨d, m⟩ := first
    obtain ⟨hfirst, hrest⟩ := List.pairwise_cons.1 h
    rw [removeOne]
    split
    · split
      · exact hrest
      · exact List.pairwise_cons.2 ⟨hfirst, hrest⟩
    · refine List.pairwise_cons.2 ⟨fun e he => ?_, ih hrest⟩
      obtain he | ⟨-, m', hm'⟩ := of_mem_removeOne he
      · exact hfirst e he
      · exact hfirst (e.1, m') hm'

theorem pairwise_positiveCounts (given : List (Cell × Int)) :
    (positiveCounts given).Pairwise EntryPrecedes := by
  have hfold : ∀ (given : List (Cell × Int)) (counts : List (Cell × Nat)),
      counts.Pairwise EntryPrecedes → (given.foldl (fun counts e =>
        if 0 < e.2 then addCount e.1 e.2.toNat counts else counts) counts).Pairwise EntryPrecedes := by
    intro given
    induction given with
    | nil => exact fun _ h => h
    | cons first rest ih =>
      intro counts h
      rw [List.foldl_cons]
      split
      · exact ih _ (pairwise_addCount h)
      · exact ih _ h
  exact hfold given [] List.Pairwise.nil

/-- A cell that has no entry has no beepers. -/
theorem countIn_eq_zero (h : ∀ e ∈ entries, e.1 ≠ d) : countIn entries d = 0 := by
  induction entries with
  | nil => rfl
  | cons first rest ih =>
    rw [countIn, if_neg (h first List.mem_cons_self)]
    exact ih fun e he => h e (List.mem_cons_of_mem _ he)

/-- Cells that come before the first entry have no beepers. -/
theorem countIn_of_before (h : ∀ e ∈ entries, d.before e.1 = true) : countIn entries d = 0 :=
  countIn_eq_zero fun e he heq => Cell.not_before_self d (heq ▸ h e he)

/-- Beepers are put on one cell, and no other cell gets or loses any. -/
theorem countIn_addCount (h : entries.Pairwise EntryPrecedes) :
    countIn (addCount c n entries) d = countIn entries d + if c = d then n else 0 := by
  induction entries with
  | nil => simp [addCount, countIn]
  | cons first rest ih =>
    obtain ⟨e, m⟩ := first
    obtain ⟨hfirst, hrest⟩ := List.pairwise_cons.1 h
    rw [addCount]
    split
    · rename_i hce
      subst hce
      by_cases hd : c = d <;> simp [countIn, hd]
    · rename_i hne
      split
      · rename_i hce
        by_cases hd : c = d
        · -- the new entry comes before all others, so its cell had none
          subst hd
          have hnone : countIn rest c = 0 :=
            countIn_of_before fun f hf => Cell.before_trans hce (hfirst f hf)
          simp [countIn, Ne.symm hne, hnone]
        · simp [countIn, hd]
      · by_cases he : e = d
        · subst he
          simp [countIn, hne]
        · simp [countIn, he, ih hrest]

/-- A beeper is taken from one cell, and no other cell gets or loses any. -/
theorem countIn_removeOne (h : entries.Pairwise EntryPrecedes) :
    countIn (removeOne c entries) d = countIn entries d - if c = d then 1 else 0 := by
  induction entries with
  | nil => simp [removeOne, countIn]
  | cons first rest ih =>
    obtain ⟨e, m⟩ := first
    obtain ⟨hfirst, hrest⟩ := List.pairwise_cons.1 h
    rw [removeOne]
    split
    · rename_i hce
      subst hce
      split
      · rename_i hm
        by_cases hd : c = d
        · subst hd
          have hnone : countIn rest c = 0 := countIn_of_before hfirst
          simp only [countIn, if_true, hnone]
          omega
        · simp [countIn, hd]
      · by_cases hd : c = d <;> simp [countIn, hd]
    · rename_i hne
      by_cases he : e = d
      · subst he
        simp [countIn, hne]
      · simp [countIn, he, ih hrest]

/-- In order, the entry of a cell is the one that is found. -/
theorem mem_iff_countIn (h : entries.Pairwise EntryPrecedes) (hpos : ∀ e ∈ entries, 0 < e.2) :
    (c, n) ∈ entries ↔ 0 < n ∧ countIn entries c = n := by
  induction entries with
  | nil =>
    simp only [List.not_mem_nil, countIn, false_iff]
    omega
  | cons first rest ih =>
    obtain ⟨d, m⟩ := first
    obtain ⟨hfirst, hrest⟩ := List.pairwise_cons.1 h
    have hm : 0 < m := hpos (d, m) List.mem_cons_self
    have ih := ih hrest fun e he => hpos e (List.mem_cons_of_mem _ he)
    by_cases hd : d = c
    · subst hd
      have hnot : (d, n) ∉ rest := fun hmem => Cell.not_before_self d (hfirst _ hmem)
      simp only [List.mem_cons, Prod.mk.injEq, true_and, hnot, or_false, countIn, if_true]
      omega
    · have hne : (c, n) ≠ (d, m) := fun heq => hd (congrArg Prod.fst heq).symm
      rw [List.mem_cons, or_iff_right hne, ih]
      simp [countIn, hd]

/-- Beepers in order are determined by how many are on each cell. -/
theorem beepers_ext (h : entries.Pairwise EntryPrecedes) (h' : entries'.Pairwise EntryPrecedes)
    (hpos : ∀ e ∈ entries, 0 < e.2) (hpos' : ∀ e ∈ entries', 0 < e.2)
    (hcount : ∀ c, countIn entries c = countIn entries' c) : entries = entries' := by
  refine h.eq_of_mem_iff h' ?_
  rintro ⟨c, n⟩
  rw [mem_iff_countIn h hpos, mem_iff_countIn h' hpos', hcount]

/-! ### Worlds -/

/-- Walls and beepers are kept in order, each of them once. -/
structure Ordered (w : World) : Prop where
  walls : w.walls.Pairwise Wall.Precedes
  beepers : w.beepers.Pairwise EntryPrecedes

theorem ofDescription_ordered {d : Description} (h : ofDescription d = .ok w) : w.Ordered := by
  obtain ⟨-, rfl⟩ := ofDescription_eq_ok.1 h
  exact ⟨Description.pairwise_wallSet _, pairwise_positiveCounts _⟩

theorem perform_ordered {a : Action} (hw : w.Ordered) (h : w.perform a = .ok after) :
    after.Ordered := by
  obtain ⟨robot, beepers, bag, rfl, -, hbeepers, -⟩ := perform_eq_ok h
  refine ⟨hw.walls, ?_⟩
  rcases hbeepers with rfl | rfl | rfl
  · exact hw.beepers
  · exact pairwise_addCount hw.beepers
  · exact pairwise_removeOne hw.beepers

theorem change_ordered (hw : w.Ordered) (x : Change) : (w.change x).Ordered := by
  cases x with
  | act a =>
    show (w.act a none).2.Ordered
    rcases act_eq w a with hsame | hperform
    · rwa [hsame]
    · exact perform_ordered hw hperform
  | reset d =>
    show (w.reset d).2.Ordered
    rcases reset_cases w d with hfresh | hsame
    · exact ofDescription_ordered hfresh
    · rwa [hsame]

theorem through_ordered (hw : w.Ordered) (changes : List Change) : (w.through changes).Ordered := by
  induction changes generalizing w with
  | nil => exact hw
  | cons x rest ih => exact ih (change_ordered hw x)

/-- The worlds that there may be: the world of a layout, after some changes. -/
def Reached (w : World) : Prop :=
  ∃ (d : Description) (first : World) (changes : List Change),
    ofDescription d = .ok first ∧ first.through changes = w

theorem Reached.valid (h : w.Reached) : w.Valid := by
  obtain ⟨d, first, changes, hfirst, rfl⟩ := h
  exact through_valid (ofDescription_valid hfirst) changes

/-- Every world that can be reached is in order. -/
theorem Reached.ordered (h : w.Reached) : w.Ordered := by
  obtain ⟨d, first, changes, hfirst, rfl⟩ := h
  exact through_ordered (ofDescription_ordered hfirst) changes

theorem Reached.of_description {d : Description} (h : ofDescription d = .ok w) : w.Reached :=
  ⟨d, w, [], h, rfl⟩

end World

end GridRobot
