import GridRobot.Proofs.Text.Numeral
import GridRobot.Proofs.World.Flawed
import GridRobot.Proofs.World.Ordered
import GridRobot.World.Entry
import Mathlib.Algebra.BigOperators.Group.List.Basic
import Mathlib.Data.List.Nodup
import Mathlib.Data.List.Perm.Basic

/-!
# The order of entries

What a world file says does not depend on the order of its entries, as long as there is one size and
at most one robot and one bag: walls are a set, and beepers on the same cell are added up.

## Main definitions

* `Entry.size?`, `Entry.robotOf?`, `Entry.side?`, `Entry.heap?` and `Entry.fill?` tell what an entry
  is about.
* `Draft.Alike` is equality of drafts but for the order of the beeper entries, and
  `Description.Alike` that of descriptions.
* `OneOfEach` says that nothing is replaced by a later entry, and `Entry.Tellable` that an entry can
  be named in an error.
* `SameWorld` says that two readings come to the same.

## Main statements

* `Draft.addAll_alike`: entries in another order make the same draft.
* `Draft.finish_alike`: drafts that are the same give the same description, or none.
* `describe_perm`: so entries in another order give the same description, or an error of the format.
-/

namespace GridRobot

namespace Entry

/-- The size in an entry. -/
def size? : Entry → Option (Int × Int)
  | .dimension width height => some (width, height)
  | _ => none

/-- The robot in an entry. -/
def robotOf? : Entry → Option Robot
  | .robot x y facing => some ⟨Draft.cellAt x y, facing⟩
  | _ => none

/-- The wall in an entry. -/
def side? : Entry → Option Wall
  | .wall x y side => some ⟨Draft.cellAt x y, side⟩
  | _ => none

/-- The beepers in an entry, with their cell. -/
def heap? : Entry → Option (Cell × Int)
  | .beepers x y count => some (Draft.cellAt x y, count)
  | _ => none

/-- The bag in an entry. -/
def fill? : Entry → Option (Option Int)
  | .bag count => some count
  | _ => none

end Entry

/-- Nothing in a list of entries is replaced by a later one. -/
structure OneOfEach (entries : List Entry) : Prop where
  size : (entries.filterMap Entry.size?).length ≤ 1
  robot : (entries.filterMap Entry.robotOf?).length ≤ 1
  bag : (entries.filterMap Entry.fill?).length ≤ 1

/-! ### Walls -/

theorem insertInOrder_comm_of_before {a b : Wall} (h : a.before b = true) (l : List Wall) :
    insertInOrder Wall.before a (insertInOrder Wall.before b l) =
      insertInOrder Wall.before b (insertInOrder Wall.before a l) := by
  have hnot : ¬ b.before a = true := fun hba => Wall.not_before_self _ (Wall.before_trans h hba)
  have hab : a ≠ b := by
    rintro rfl
    exact hnot h
  induction l with
  | nil => simp [insertInOrder, hab, hab.symm, h, hnot]
  | cons c rest ih =>
    rcases eq_or_ne a c with rfl | hac
    · simp [insertInOrder, hab.symm, hnot]
    rcases eq_or_ne b c with rfl | hbc
    · simp [insertInOrder, hab, hab.symm, h, hnot]
    -- where `a` does not come before the head, `b` does not either, and both go further down
    by_cases hbefore : a.before c = true
    · by_cases hb : b.before c = true
      · simp [insertInOrder, hab, hab.symm, hac, hbc, h, hnot, hbefore, hb]
      · simp [insertInOrder, hab.symm, hac, hbc, hnot, hbefore, hb]
    · have hb : ¬ b.before c = true := fun hb => hbefore (Wall.before_trans h hb)
      simp [insertInOrder, hac, hbc, hbefore, hb, ih]

/-- Two walls can be put into a set in either order. -/
theorem insertInOrder_comm (a b : Wall) (l : List Wall) :
    insertInOrder Wall.before a (insertInOrder Wall.before b l) =
      insertInOrder Wall.before b (insertInOrder Wall.before a l) := by
  by_cases hab : a.before b = true
  · exact insertInOrder_comm_of_before hab l
  by_cases hba : b.before a = true
  · exact (insertInOrder_comm_of_before hba l).symm
  · rw [Wall.before_total hab hba]

/-! ### Beepers -/

namespace Description

variable {entries heaps heaps' : List (Cell × Int)} {c d : Cell} {m n : Int}

/-- Entries with some beepers more on a cell. -/
def addCount (entries : List (Cell × Int)) (heap : Cell × Int) : List (Cell × Int) :=
  setCount entries heap.1 (countIn entries heap.1 + heap.2)

theorem countIn_setCount :
    countIn (setCount entries c n) d = if c = d then n else countIn entries d := by
  induction entries with
  | nil => simp [setCount, countIn]
  | cons e rest ih =>
    obtain ⟨cell, m⟩ := e
    by_cases hcell : cell = c
    · subst hcell
      by_cases hd : cell = d
      · simp [setCount, countIn, hd]
      · simp [setCount, countIn, hd]
    · rcases eq_or_ne cell d with rfl | hd
      · simp [setCount, countIn, hcell, Ne.symm hcell]
      · simp [setCount, countIn, hcell, hd, ih]

theorem mem_keys_setCount :
    d ∈ (setCount entries c n).map Prod.fst ↔ d = c ∨ d ∈ entries.map Prod.fst := by
  induction entries with
  | nil => simp [setCount]
  | cons e rest ih =>
    obtain ⟨cell, m⟩ := e
    by_cases hcell : cell = c
    · subst hcell
      simp [setCount]
    · rw [setCount, if_neg hcell, List.map_cons, List.map_cons, List.mem_cons, List.mem_cons, ih]
      exact or_left_comm

theorem nodup_setCount (h : (entries.map Prod.fst).Nodup) :
    ((setCount entries c n).map Prod.fst).Nodup := by
  induction entries with
  | nil => simp [setCount]
  | cons e rest ih =>
    obtain ⟨cell, m⟩ := e
    rw [List.map_cons, List.nodup_cons] at h
    by_cases hcell : cell = c
    · subst hcell
      rw [setCount, if_pos rfl, List.map_cons, List.nodup_cons]
      exact h
    · rw [setCount, if_neg hcell, List.map_cons, List.nodup_cons, mem_keys_setCount]
      exact ⟨fun hmem => hmem.elim hcell h.1, ih h.2⟩

/-- What some heaps come to on a cell. -/
def total (heaps : List (Cell × Int)) (c : Cell) : Int :=
  ((heaps.filter fun heap => heap.1 = c).map Prod.snd).sum

theorem total_perm (h : heaps.Perm heaps') : total heaps c = total heaps' c :=
  ((h.filter _).map _).sum_eq

theorem countIn_addCounts : countIn (heaps.foldl addCount entries) c =
    countIn entries c + total heaps c := by
  induction heaps generalizing entries with
  | nil => simp [total]
  | cons heap rest ih =>
    rw [List.foldl_cons, ih, addCount, countIn_setCount]
    by_cases hc : heap.1 = c
    · subst hc
      simp [total, Int.add_assoc]
    · simp [total, hc]

theorem mem_keys_addCounts : c ∈ (heaps.foldl addCount entries).map Prod.fst ↔
    c ∈ heaps.map Prod.fst ∨ c ∈ entries.map Prod.fst := by
  induction heaps generalizing entries with
  | nil => simp
  | cons heap rest ih =>
    rw [List.foldl_cons, ih, addCount, mem_keys_setCount, List.map_cons, List.mem_cons]
    exact or_left_comm.trans (or_assoc.symm)

theorem nodup_addCounts (h : (entries.map Prod.fst).Nodup) :
    ((heaps.foldl addCount entries).map Prod.fst).Nodup := by
  induction heaps generalizing entries with
  | nil => exact h
  | cons heap rest ih => exact ih (nodup_setCount h)

/-- Heaps that are put down in another order are the same heaps. -/
theorem addCounts_perm (h : heaps.Perm heaps') :
    (heaps.foldl addCount []).Perm (heaps'.foldl addCount []) := by
  -- each cell is named once, so both lists are determined by their cells and counts
  have hnodup : ∀ heaps : List (Cell × Int), ((heaps.foldl addCount []).map Prod.fst).Nodup :=
    fun _ => nodup_addCounts List.nodup_nil
  rw [List.perm_ext_iff_of_nodup (List.Nodup.of_map _ (hnodup heaps))
    (List.Nodup.of_map _ (hnodup heaps'))]
  rintro ⟨c, n⟩
  rw [mem_iff_countIn (hnodup heaps), mem_iff_countIn (hnodup heaps'), countIn_addCounts,
    countIn_addCounts, mem_keys_addCounts, mem_keys_addCounts, total_perm h, (h.map Prod.fst).mem_iff]

/-- Equality of descriptions but for the order of the beeper entries. -/
structure Alike (d d' : Description) : Prop where
  width : d.width = d'.width
  height : d.height = d'.height
  robot : d.robot = d'.robot
  walls : d.walls = d'.walls
  beepers : d.beepers.Perm d'.beepers
  bag : d.bag = d'.bag

variable {a b : Description}

theorem Alike.symm (h : a.Alike b) : b.Alike a :=
  ⟨h.width.symm, h.height.symm, h.robot.symm, h.walls.symm, h.beepers.symm, h.bag.symm⟩

theorem Alike.problem?_eq_none_iff (h : a.Alike b) : a.problem? = none ↔ b.problem? = none := by
  have hbeepers (P : Cell × Int → Prop) : (∀ e ∈ a.beepers, P e) ↔ ∀ e ∈ b.beepers, P e :=
    forall_congr' fun e => imp_congr_left h.beepers.mem_iff
  rw [problem?_eq_none, problem?_eq_none, h.width, h.height, h.robot, h.bag, hbeepers]

/-- Descriptions that are the same are both worlds, or neither is. -/
theorem Alike.checked (h : a.Alike b) :
    (∃ a' b', a.checked = .ok a' ∧ b.checked = .ok b' ∧ a'.Alike b') ∨
      ∃ e e', a.checked = .error e ∧ b.checked = .error e' := by
  have hiff := h.problem?_eq_none_iff
  unfold Description.checked
  cases ha : a.problem? with
  | none =>
    rw [hiff.1 ha]
    exact .inl ⟨a, b, rfl, rfl, h⟩
  | some cause =>
    cases hb : b.problem? with
    | none => exact absurd (hiff.2 hb) (by simp [ha])
    | some cause' => exact .inr ⟨_, _, rfl, rfl⟩

end Description

/-! ### Drafts -/

namespace Draft

variable {d d' : Draft} {entries entries' : List Entry}

/-- Equality of drafts but for the order of the beeper entries. -/
structure Alike (d d' : Draft) : Prop where
  size : d.size = d'.size
  robot : d.robot = d'.robot
  walls : d.walls = d'.walls
  beepers : d.beepers.Perm d'.beepers
  bag : d.bag = d'.bag

theorem addAll_size :
    (d.addAll entries).size = ((entries.filterMap Entry.size?).getLast?).or d.size := by
  induction entries generalizing d with
  | nil => simp [addAll]
  | cons e rest ih =>
    rw [addAll, List.foldl_cons, ← addAll, ih]
    cases e <;> simp [add, Entry.size?, List.getLast?_cons]

theorem addAll_robot :
    (d.addAll entries).robot = ((entries.filterMap Entry.robotOf?).getLast?).getD d.robot := by
  induction entries generalizing d with
  | nil => simp [addAll]
  | cons e rest ih =>
    rw [addAll, List.foldl_cons, ← addAll, ih]
    cases e <;> simp [add, Entry.robotOf?, List.getLast?_cons]

theorem addAll_bag :
    (d.addAll entries).bag = ((entries.filterMap Entry.fill?).getLast?).getD d.bag := by
  induction entries generalizing d with
  | nil => simp [addAll]
  | cons e rest ih =>
    rw [addAll, List.foldl_cons, ← addAll, ih]
    cases e <;> simp [add, Entry.fill?, List.getLast?_cons]

theorem addAll_walls : (d.addAll entries).walls =
    (entries.filterMap Entry.side?).foldl (fun set w => insertInOrder Wall.before w set) d.walls := by
  induction entries generalizing d with
  | nil => simp [addAll]
  | cons e rest ih =>
    rw [addAll, List.foldl_cons, ← addAll, ih]
    cases e <;> simp [List.filterMap_cons, add, Entry.side?]

theorem addAll_beepers : (d.addAll entries).beepers =
    (entries.filterMap Entry.heap?).foldl Description.addCount d.beepers := by
  induction entries generalizing d with
  | nil => simp [addAll]
  | cons e rest ih =>
    rw [addAll, List.foldl_cons, ← addAll, ih]
    cases e <;> simp [List.filterMap_cons, add, Entry.heap?, Description.addCount]

theorem eq_of_perm_of_length_le_one {α : Type} {l l' : List α} (h : l.Perm l')
    (hl : l.length ≤ 1) : l = l' := by
  match l, hl with
  | [], _ => exact h.nil_eq
  | [a], _ => exact h.singleton_eq

/-- Entries in another order make the same draft. -/
theorem addAll_alike {bag : Option Int} (h : entries.Perm entries') (hone : OneOfEach entries) :
    ((empty bag).addAll entries).Alike ((empty bag).addAll entries') where
  size := by
    rw [addAll_size, addAll_size, eq_of_perm_of_length_le_one (h.filterMap _) hone.size]
  robot := by
    rw [addAll_robot, addAll_robot, eq_of_perm_of_length_le_one (h.filterMap _) hone.robot]
  walls := by
    rw [addAll_walls, addAll_walls]
    exact (h.filterMap _).foldl_eq' (fun a _ b _ set => insertInOrder_comm b a set) _
  beepers := by
    rw [addAll_beepers, addAll_beepers]
    exact Description.addCounts_perm (h.filterMap _)
  bag := by
    rw [addAll_bag, addAll_bag, eq_of_perm_of_length_le_one (h.filterMap _) hone.bag]

/-- Drafts that are the same give the same description, or none. -/
theorem finish_alike (h : d.Alike d') :
    (∃ a b, d.finish = .ok a ∧ d'.finish = .ok b ∧ a.Alike b) ∨
      ∃ e e', d.finish = .error e ∧ d'.finish = .error e' := by
  unfold finish
  rw [← h.size]
  cases d.size with
  | none => exact .inr ⟨_, _, rfl, rfl⟩
  | some size =>
    obtain ⟨width, height⟩ := size
    have halike : Description.Alike ⟨width, height, d.robot, d.walls, d.beepers, d.bag⟩
        ⟨width, height, d'.robot, d'.walls, d'.beepers, d'.bag⟩ :=
      ⟨rfl, rfl, h.robot, h.walls, h.beepers, h.bag⟩
    exact halike.checked

end Draft

/-! ### Errors that can be told -/

/-- The numbers in an entry are short enough to be told, where cells are counted from zero. -/
def Entry.Tellable : Entry → Prop
  | .dimension width height => Text.isWritable width = true ∧ Text.isWritable height = true
  | .robot x y _ => Text.isWritable (x - 1) = true ∧ Text.isWritable (y - 1) = true
  | .beepers x y _ => Text.isWritable (x - 1) = true ∧ Text.isWritable (y - 1) = true
  | _ => True

namespace Description

variable {d : Description} {cause : FormatError.Cause}

/-- What is wrong with a layout can be told if the numbers in it can. -/
theorem problem?_writable (hwidth : Text.isWritable d.width = true)
    (hheight : Text.isWritable d.height = true)
    (hrobot : Text.isWritable d.robot.cell.x = true ∧ Text.isWritable d.robot.cell.y = true)
    (hbeepers : ∀ e ∈ d.beepers, Text.isWritable e.1.x = true ∧ Text.isWritable e.1.y = true)
    (h : d.problem? = some cause) : cause.isWritable = true := by
  by_contra hnot
  cases untellable_of_problem? h (Bool.not_eq_true _ ▸ hnot) with
  | size _ hlong => exact hlong ⟨hwidth, hheight⟩
  | robot _ _ hlong => exact hlong hrobot
  | beepers _ _ hentries _ _ hlong =>
    exact hlong (hbeepers _ (hentries ▸ List.mem_append_right _ List.mem_cons_self))

end Description

namespace Draft

variable {bag : Option Int} {entries entries' : List Entry} {e : FormatError}

theorem size_tellable (htell : ∀ e ∈ entries, e.Tellable) {width height : Int}
    (h : ((empty bag).addAll entries).size = some (width, height)) :
    Text.isWritable width = true ∧ Text.isWritable height = true := by
  rw [addAll_size, empty, Option.or_none] at h
  obtain ⟨e, he, hsize⟩ := List.mem_filterMap.1 (List.mem_of_getLast? h)
  have hpair := htell e he
  cases e with
  | dimension => cases hsize; exact hpair
  | _ => cases hsize

theorem robot_tellable (htell : ∀ e ∈ entries, e.Tellable) :
    Text.isWritable ((empty bag).addAll entries).robot.cell.x = true ∧
      Text.isWritable ((empty bag).addAll entries).robot.cell.y = true := by
  rw [addAll_robot]
  cases h : (entries.filterMap Entry.robotOf?).getLast? with
  | none => exact ⟨Text.isWritable_zero, Text.isWritable_zero⟩
  | some robot =>
    obtain ⟨e, he, hrobot⟩ := List.mem_filterMap.1 (List.mem_of_getLast? h)
    have hpair := htell e he
    cases e with
    | robot => cases hrobot; exact hpair
    | _ => cases hrobot

theorem beepers_tellable (htell : ∀ e ∈ entries, e.Tellable) {heap : Cell × Int}
    (h : heap ∈ ((empty bag).addAll entries).beepers) :
    Text.isWritable heap.1.x = true ∧ Text.isWritable heap.1.y = true := by
  rw [addAll_beepers] at h
  have hkey := Description.mem_keys_addCounts.1 (List.mem_map_of_mem h)
  simp only [empty, List.map_nil, List.not_mem_nil, or_false, List.mem_map, List.mem_filterMap] at hkey
  obtain ⟨other, ⟨e, he, hheap⟩, hcell⟩ := hkey
  have hpair := htell e he
  cases e with
  | beepers =>
    cases hheap
    rw [← hcell]
    exact hpair
  | _ => cases hheap

/-- What is wrong with a draft can be told if its entries can. -/
theorem finish_writable (htell : ∀ e ∈ entries, e.Tellable)
    (h : ((empty bag).addAll entries).finish = .error e) : e.cause.isWritable = true := by
  unfold finish at h
  split at h
  · cases h
    rfl
  · next width height hsize =>
    unfold Description.checked at h
    split at h
    · cases h
    · next cause hcause =>
      cases h
      obtain ⟨hwidth, hheight⟩ := size_tellable htell hsize
      refine Description.problem?_writable ?_ ?_ ?_ ?_ hcause
      · exact hwidth
      · exact hheight
      · exact robot_tellable htell
      · exact fun _ hheap => beepers_tellable htell hheap

end Draft

/-- Two readings of world files come to the same description, or to a format error each. -/
def SameWorld (r r' : Except LayoutError Description) : Prop :=
  (∃ d d', r = .ok d ∧ r' = .ok d' ∧ d.Alike d') ∨
    ∃ e e', r = .error (.format e) ∧ r' = .error (.format e')

theorem SameWorld.symm {r r' : Except LayoutError Description} (h : SameWorld r r') :
    SameWorld r' r := by
  rcases h with ⟨d, d', h, h', halike⟩ | ⟨e, e', h, h'⟩
  · exact .inl ⟨d', d, h', h, halike.symm⟩
  · exact .inr ⟨e', e, h', h⟩

/-- Entries in another order give the same description, if they can be told and nothing is
replaced. -/
theorem describe_perm {bag : Option Int} {entries entries' : List Entry}
    (h : entries.Perm entries') (hone : OneOfEach entries) (htell : ∀ e ∈ entries, e.Tellable) :
    SameWorld (describe bag entries) (describe bag entries') := by
  have htell' : ∀ e ∈ entries', e.Tellable := fun e he => htell e (h.mem_iff.2 he)
  have hdrafts : ((Draft.empty bag).addAll entries).Alike ((Draft.empty bag).addAll entries') :=
    Draft.addAll_alike h hone
  unfold describe
  rcases Draft.finish_alike hdrafts with
    ⟨a, b, ha, hb, halike⟩ | ⟨e, e', he, he'⟩
  · exact .inl ⟨a, b, by rw [ha]; rfl, by rw [hb]; rfl, halike⟩
  · refine .inr ⟨e, e', ?_, ?_⟩
    · have hwritable := Draft.finish_writable htell he
      exact mapError_eq_error.2 ⟨e, he, LayoutError.ofFormat_eq_format.2 ⟨hwritable, rfl⟩⟩
    · have hwritable := Draft.finish_writable htell' he'
      exact mapError_eq_error.2 ⟨e', he', LayoutError.ofFormat_eq_format.2 ⟨hwritable, rfl⟩⟩

end GridRobot
