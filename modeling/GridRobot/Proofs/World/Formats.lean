import GridRobot.Proofs.Reading
import GridRobot.Proofs.World.Draft
import GridRobot.Proofs.World.Written
import GridRobot.World.Format
import GridRobot.Yaml.Document

/-!
# The two formats of world files

A list of things to say about a world can be written as lines, in any order, or as a mapping of
values. Both are read as the same world, or as no world.

## Main definitions

* `Roster` is a list of things to say, with one size and at most one robot and one bag.
* `Roster.Told` says that a mapping tells what is in a roster.
* `Follows` says that a reading comes to what is meant.

## Main statements

* `Roster.follows_lines`: lines, in any order, are read as the entries that are meant.
* `Roster.follows_values`: so is a mapping.
* `Roster.formats_agree`: the lines and the mapping are read as the same world.
-/

namespace GridRobot

/-! ### What is meant -/

/-- A reading comes to what is meant, or to a format error where nothing is. -/
inductive Follows {α : Type} : Except LayoutError α → Option α → Prop where
  | ok (a : α) : Follows (.ok a) (some a)
  | error (e : FormatError) : Follows (.error (.format e)) none

namespace Follows

variable {α β : Type} {r : Except LayoutError α} {o : Option α} {f : α → Except LayoutError β}
  {g : α → Option β}

theorem eq_ok {a : α} (h : Follows r (some a)) : r = .ok a := by
  cases h
  rfl

theorem eq_error (h : Follows r none) : ∃ e, r = .error (.format e) := by
  cases h with
  | error e => exact ⟨e, rfl⟩

theorem bind (h : Follows r o) (hf : ∀ a, Follows (f a) (g a)) : Follows (r >>= f) (o >>= g) := by
  cases h with
  | ok a => exact hf a
  | error e => exact .error e

theorem mapM {ι κ : Type} {read : ι → Except LayoutError β} {mean : κ → Option β} {is : List ι}
    {ks : List κ} (h : List.Forall₂ (fun i k => Follows (read i) (mean k)) is ks) :
    Follows (is.mapM read) (ks.mapM mean) := by
  induction h with
  | nil => exact .ok []
  | cons hhead _ ih =>
    rw [List.mapM_cons, List.mapM_cons]
    exact hhead.bind fun b => ih.bind fun bs => .ok (b :: bs)

end Follows

/-- What is meant by some items in another order is the same, in another order. -/
theorem mapM_perm {α β : Type} {f : α → Option β} {l l' : List α} (h : l.Perm l') :
    (l.mapM f = none ∧ l'.mapM f = none) ∨
      ∃ bs bs', l.mapM f = some bs ∧ l'.mapM f = some bs' ∧ bs.Perm bs' := by
  induction h with
  | nil => exact .inr ⟨[], [], rfl, rfl, .nil⟩
  | cons a _ ih =>
    rw [List.mapM_cons, List.mapM_cons]
    cases ha : f a with
    | none => exact .inl ⟨rfl, rfl⟩
    | some b =>
      rcases ih with ⟨h, h'⟩ | ⟨bs, bs', h, h', hperm⟩
      · exact .inl ⟨by rw [h]; rfl, by rw [h']; rfl⟩
      · exact .inr ⟨b :: bs, b :: bs', by rw [h]; rfl, by rw [h']; rfl, hperm.cons b⟩
  | swap a a' l =>
    simp only [List.mapM_cons]
    cases ha : f a <;> cases ha' : f a' <;> cases hl : l.mapM f
    all_goals first
      | exact .inl ⟨rfl, rfl⟩
      | exact .inr ⟨_, _, rfl, rfl, .swap _ _ _⟩
  | trans _ _ ih ih' =>
    rcases ih with ⟨h, h'⟩ | ⟨bs, bs', h, h', hperm⟩
    · rcases ih' with ⟨g, g'⟩ | ⟨cs, cs', g, g', hperm'⟩
      · exact .inl ⟨h, g'⟩
      · exact absurd (h'.symm.trans g) (by simp)
    · rcases ih' with ⟨g, g'⟩ | ⟨cs, cs', g, g', hperm'⟩
      · exact absurd (h'.symm.trans g) (by simp)
      · obtain rfl := Option.some.inj (h'.symm.trans g)
        exact .inr ⟨bs, cs', h, g', hperm.trans hperm'⟩

/-! ### Lists of things to say -/

/-- Things to say about a world: one size, at most one robot, walls, beepers, at most one bag. -/
structure Roster where
  size : Int × Int
  robot : Option (Int × Int × Option String)
  walls : List (Int × Int × String)
  beepers : List (Int × Int × Option Int)
  bag : Option Amount
  deriving Repr, DecidableEq

namespace Roster

/-- The items of a roster. -/
def items (r : Roster) : List Item :=
  .dimension r.size.1 r.size.2 :: (r.robot.map fun (x, y, facing) => .robot x y facing).toList ++
    r.walls.map (fun (x, y, side) => .wall x y side) ++
    r.beepers.map (fun (x, y, count) => .beepers x y count) ++ (r.bag.map .bag).toList

end Roster

/-- The cell of an item can be told, where cells are counted from zero. -/
def Item.Tellable : Item → Prop
  | .robot x y _ => Text.isWritable (x - 1) = true ∧ Text.isWritable (y - 1) = true
  | .beepers x y _ => Text.isWritable (x - 1) = true ∧ Text.isWritable (y - 1) = true
  | _ => True

theorem Item.tellable_of_meant? {i : Item} {e : Entry} (hproper : i.Proper) (htell : i.Tellable)
    (h : i.meant? = some e) : e.Tellable := by
  cases i with
  | dimension width height =>
    simp only [Item.meant?, Entry.dimension?] at h
    split at h
    · cases h
    · cases h
      exact hproper
  | robot x y facing =>
    rw [Item.meant?, Option.map_eq_some_iff] at h
    obtain ⟨d, -, rfl⟩ := h
    exact htell
  | wall x y side =>
    rw [Item.meant?, Option.map_eq_some_iff] at h
    obtain ⟨d, -, rfl⟩ := h
    trivial
  | beepers x y count =>
    simp only [Item.meant?, Entry.beepers?] at h
    split at h
    · cases h
    · cases h
      exact htell
  | bag amount =>
    cases amount with
    | number n =>
      simp only [Item.meant?] at h
      split at h
      · cases h
      · cases h
        trivial
    | endless word =>
      cases h
      trivial

/-! ### Lines -/

/-- The lines of some items are read as the entries that are meant. -/
theorem Lines.follows_items {items : List Item} (h : ∀ i ∈ items, i.Proper) (number : Nat) :
    Follows (Lines.readEntries number (items.map fun i => i.line.toList))
      (items.mapM Item.meant?) := by
  induction items generalizing number with
  | nil => exact .ok []
  | cons i rest ih =>
    obtain ⟨r, hread, hmeant⟩ := Lines.readEntry_line (h i (by simp))
    rw [List.map_cons, List.mapM_cons, Lines.readEntries, hread, ← hmeant]
    cases r with
    | error c => exact .error _
    | ok e => exact (ih (fun j hj => h j (by simp [hj])) (number + 1)).bind fun es => .ok (e :: es)

/-! ### Mappings -/

/-- A mapping tells a point. -/
def PointTold (fields : List (Value × Value)) (x y : Int) : Prop :=
  Value.find? "x" fields = some (.int x) ∧ Value.find? "y" fields = some (.int y)

/-- A value tells where the robot is. -/
def RobotTold (robot : Int × Int × Option String) (v : Value) : Prop :=
  ∃ fields, v = .map fields ∧ PointTold fields robot.1 robot.2.1 ∧
    Value.find? "direction" fields = robot.2.2.map fun word => .text word

/-- A value tells a wall. -/
def WallTold (v : Value) (wall : Int × Int × String) : Prop :=
  ∃ fields, v = .map fields ∧ PointTold fields wall.1 wall.2.1 ∧
    Value.find? "side" fields = some (.text wall.2.2)

/-- A value tells some beepers. -/
def BeepersTold (v : Value) (beepers : Int × Int × Option Int) : Prop :=
  ∃ fields, v = .map fields ∧ PointTold fields beepers.1 beepers.2.1 ∧
    Value.find? "count" fields = beepers.2.2.map .int

/-- The value that tells an amount. -/
def Amount.value : Amount → Value
  | number n => .int n
  | endless word => .text word

/-- A list that may be left out tells some things, one after the other. -/
def ListTold {α : Type} (told : Value → α → Prop) (found : Option Value) (things : List α) : Prop :=
  (found = none ∧ things = []) ∨ ∃ vs, found = some (.list vs) ∧ List.Forall₂ told vs things

/-- A mapping tells what is in a roster. -/
structure Roster.Told (r : Roster) (fields : List (Value × Value)) : Prop where
  size : Value.find? "dimension" fields = some (.list [.int r.size.1, .int r.size.2])
  robot : match r.robot with
    | none => Value.find? "karel" fields = none
    | some robot => ∃ v, Value.find? "karel" fields = some v ∧ RobotTold robot v
  walls : ListTold WallTold (Value.find? "walls" fields) r.walls
  beepers : ListTold BeepersTold (Value.find? "beepers" fields) r.beepers
  bag : Value.find? "bag" fields = r.bag.map Amount.value

namespace Values

variable {fields : List (Value × Value)} {x y : Int} {v : Value}

theorem follows_made {r : Except FormatError.Cause Entry} : Follows (made r) r.toOption := by
  cases r with
  | ok e => exact .ok e
  | error c =>
    show Follows (.error (ofCause c)) none
    unfold ofCause
    split
    · exact .error _
    · exact .error _

theorem integerAt_of_find? {key : String} {n : Int} (h : Value.find? key fields = some (.int n)) :
    integerAt key fields = .ok n := by
  rw [integerAt, Value.require, h]
  rfl

theorem follows_dimension {width height : Int}
    (h : Value.find? "dimension" fields = some (.list [.int width, .int height])) :
    Follows (dimensionOf fields) (Item.dimension width height).meant? := by
  rw [dimensionOf, Value.require, h]
  exact follows_made

theorem follows_robot {robot : Int × Int × Option String} (h : RobotTold robot v)
    (hv : Value.find? "karel" fields = some v) : Follows (robotOf fields)
      ((Item.robot robot.1 robot.2.1 robot.2.2).meant?.map fun e => [e]) := by
  obtain ⟨inner, rfl, ⟨hx, hy⟩, hfacing⟩ := h
  have hword : wordOf ((Value.find? "direction" inner).getD (.text "east")) =
      .ok (.ofString (robot.2.2.getD "east")) := by
    rw [hfacing]
    cases robot.2.2 <;> rfl
  have hrobot : robotOf fields =
      (made (Entry.robot? robot.1 robot.2.1 (.ofString (robot.2.2.getD "east"))) >>=
        fun e => .ok [e]) := by
    rw [robotOf, hv]
    show (integerAt "x" inner >>= fun x => integerAt "y" inner >>= fun y =>
      wordOf ((Value.find? "direction" inner).getD (.text "east")) >>= fun facing =>
        made (Entry.robot? x y facing) >>= fun e => .ok [e]) = _
    rw [integerAt_of_find? hx, ok_bind, integerAt_of_find? hy, ok_bind, hword, ok_bind]
  have hmeant : (Entry.robot? robot.1 robot.2.1 (.ofString (robot.2.2.getD "east"))).toOption =
      (Item.robot robot.1 robot.2.1 robot.2.2).meant? := by
    rw [Entry.robot?, Lines.toOption_map, Lines.toOption_direction?, Item.meant?]
  rw [hrobot, ← hmeant, Option.map_eq_bind]
  exact follows_made.bind fun e => .ok [e]

theorem follows_wall {wall : Int × Int × String} (h : WallTold v wall) :
    Follows (wallOf v) (Item.wall wall.1 wall.2.1 wall.2.2).meant? := by
  obtain ⟨inner, rfl, ⟨hx, hy⟩, hside⟩ := h
  have hwall : wallOf (.map inner) = made (Entry.wall? wall.1 wall.2.1 (.ofString wall.2.2)) := by
    show (integerAt "x" inner >>= fun x => integerAt "y" inner >>= fun y =>
      used (Value.require "side" inner) >>= fun v => wordOf v >>= fun side =>
        made (Entry.wall? x y side)) = _
    rw [integerAt_of_find? hx, ok_bind, integerAt_of_find? hy, ok_bind, Value.require, hside]
    rfl
  have hmeant : (Entry.wall? wall.1 wall.2.1 (.ofString wall.2.2)).toOption =
      (Item.wall wall.1 wall.2.1 wall.2.2).meant? := by
    rw [Entry.wall?, Lines.toOption_map, Lines.toOption_direction?, Item.meant?]
  rw [hwall, ← hmeant]
  exact follows_made

theorem follows_beepers {beepers : Int × Int × Option Int} (h : BeepersTold v beepers) :
    Follows (beepersOf v) (Item.beepers beepers.1 beepers.2.1 beepers.2.2).meant? := by
  obtain ⟨inner, rfl, ⟨hx, hy⟩, hcount⟩ := h
  have hread : used ((Value.find? "count" inner).getD (.int 1)).toInteger =
      .ok (beepers.2.2.getD 1) := by
    rw [hcount]
    cases beepers.2.2 <;> rfl
  have hbeepers : beepersOf (.map inner) =
      made (Entry.beepers? beepers.1 beepers.2.1 (beepers.2.2.getD 1)) := by
    show (integerAt "x" inner >>= fun x => integerAt "y" inner >>= fun y =>
      used ((Value.find? "count" inner).getD (.int 1)).toInteger >>= fun count =>
        made (Entry.beepers? x y count)) = _
    rw [integerAt_of_find? hx, ok_bind, integerAt_of_find? hy, ok_bind, hread, ok_bind]
  rw [hbeepers]
  exact follows_made

theorem itemsOf_of_told {α : Type} {told : Value → α → Prop} {key : String} {things : List α}
    (h : ListTold told (Value.find? key fields) things) :
    ∃ vs, itemsOf key fields = .ok vs ∧ List.Forall₂ told vs things := by
  rcases h with ⟨hnone, rfl⟩ | ⟨vs, hsome, htold⟩
  · exact ⟨[], by rw [itemsOf, hnone], .nil⟩
  · refine ⟨vs, ?_, htold⟩
    rw [itemsOf, hsome]
    cases vs <;> rfl

theorem bagOf_some (h : Value.find? "bag" fields = some v) (hnull : v ≠ .null)
    (hwritable : v.isWritable = true) :
    bagOf fields = made (Entry.bag? v.asText v.shown) >>= fun e => .ok [e] := by
  cases v with
  | null => exact absurd rfl hnull
  | _ => simp only [bagOf, h, hwritable, if_true]

theorem follows_bag {amount : Amount} (hproper : (Item.bag amount).Proper)
    (h : Value.find? "bag" fields = some amount.value) :
    Follows (bagOf fields) ((Item.bag amount).meant?.map fun e => [e]) := by
  cases amount with
  | number n =>
    have htext : (Value.int n).asText = .ofString (toString n) := rfl
    rw [Amount.value] at h
    rw [bagOf_some h nofun hproper, htext, ← Lines.toOption_bag? hproper (Value.int n).shown,
      Option.map_eq_bind]
    exact follows_made.bind fun e => .ok [e]
  | endless word =>
    have hinfinite : ∀ shown, Entry.bag? (.ofString word) shown = .ok (.bag none) := by
      have hword : word ∈ Entry.infiniteWords := hproper
      simp only [Entry.infiniteWords, List.mem_cons, List.not_mem_nil, or_false] at hword
      rcases hword with rfl | rfl | rfl | rfl <;> exact fun _ => rfl
    rw [Amount.value] at h
    rw [bagOf_some h nofun rfl, Value.asText, hinfinite]
    exact .ok [Entry.bag none]

theorem follows_robots {robot : Option (Int × Int × Option String)}
    (h : match robot with
      | none => Value.find? "karel" fields = none
      | some robot => ∃ v, Value.find? "karel" fields = some v ∧ RobotTold robot v) :
    Follows (robotOf fields)
      ((robot.map fun (x, y, facing) => Item.robot x y facing).toList.mapM Item.meant?) := by
  cases robot with
  | none =>
    rw [robotOf, h]
    exact .ok []
  | some robot =>
    obtain ⟨v, hv, hrobot⟩ := h
    have hmeant := follows_robot hrobot hv
    rw [Option.map_eq_bind] at hmeant
    simpa [List.mapM_cons] using hmeant

/-- A list of values is read as what is meant by the things that it tells. -/
theorem follows_list {α : Type} {told : Value → α → Prop} {key : String} {things : List α}
    {read : Value → Except LayoutError Entry} {item : α → Item}
    (hread : ∀ v a, told v a → Follows (read v) (item a).meant?)
    (h : ListTold told (Value.find? key fields) things) :
    Follows (itemsOf key fields >>= fun vs => vs.mapM read) ((things.map item).mapM Item.meant?) := by
  obtain ⟨vs, hitems, htold⟩ := itemsOf_of_told h
  rw [hitems, ok_bind]
  exact Follows.mapM (List.forall₂_map_right_iff.2 (htold.imp fun v a => hread v a))

theorem follows_bags {amount : Option Amount} (hproper : ∀ a ∈ amount, (Item.bag a).Proper)
    (h : Value.find? "bag" fields = amount.map Amount.value) :
    Follows (bagOf fields) ((amount.map Item.bag).toList.mapM Item.meant?) := by
  cases amount with
  | none =>
    rw [Option.map_none] at h
    rw [bagOf, h]
    exact .ok []
  | some amount =>
    have hmeant := follows_bag (hproper amount rfl) h
    rw [Option.map_eq_bind] at hmeant
    simpa [List.mapM_cons] using hmeant

end Values

namespace Roster

variable {r : Roster} {bag : Option Int} {fields : List (Value × Value)}

theorem mapM_items : r.items.mapM Item.meant? =
    (Item.dimension r.size.1 r.size.2).meant? >>= fun dimension =>
    (r.robot.map fun (x, y, facing) => Item.robot x y facing).toList.mapM Item.meant? >>= fun robot =>
    (r.walls.map fun (x, y, side) => Item.wall x y side).mapM Item.meant? >>= fun walls =>
    (r.beepers.map fun (x, y, count) => Item.beepers x y count).mapM Item.meant? >>= fun beepers =>
    (r.bag.map Item.bag).toList.mapM Item.meant? >>= fun bag =>
    some (dimension :: robot ++ walls ++ beepers ++ bag) := by
  simp [items, List.mapM_append, List.mapM_cons, Option.bind_assoc]

/-- A mapping is read as the entries that are meant by what it tells. -/
theorem follows_values (hproper : ∀ i ∈ r.items, i.Proper) (h : r.Told fields) :
    Follows (Values.readEntries fields) (r.items.mapM Item.meant?) := by
  have hbag : ∀ a ∈ r.bag, (Item.bag a).Proper := by
    intro a ha
    refine hproper _ ?_
    simp [items, Option.mem_def.1 ha]
  have hread : Values.readEntries fields =
      Values.dimensionOf fields >>= fun dimension =>
      Values.robotOf fields >>= fun robot =>
      (Values.itemsOf "walls" fields >>= fun vs => vs.mapM Values.wallOf) >>= fun walls =>
      (Values.itemsOf "beepers" fields >>= fun vs => vs.mapM Values.beepersOf) >>= fun beepers =>
      Values.bagOf fields >>= fun bag =>
      .ok (dimension :: robot ++ walls ++ beepers ++ bag) := by
    simp only [Values.readEntries, bind_assoc]
  rw [hread, mapM_items]
  exact (Values.follows_dimension h.size).bind fun dimension =>
    (Values.follows_robots h.robot).bind fun robot =>
    (Values.follows_list (fun _ _ h => Values.follows_wall h) h.walls).bind fun walls =>
    (Values.follows_list (fun _ _ h => Values.follows_beepers h) h.beepers).bind fun beepers =>
    (Values.follows_bags hbag h.bag).bind fun bag => .ok _

theorem mapM_eq_filterMap {α β : Type} {f : α → Option β} {l : List α} {bs : List β}
    (h : l.mapM f = some bs) : bs = l.filterMap f := by
  induction l generalizing bs with
  | nil => simpa using h.symm
  | cons a rest ih =>
    rw [List.mapM_cons] at h
    obtain ⟨b, hb, h⟩ := Option.bind_eq_some_iff.1 h
    obtain ⟨others, hothers, h⟩ := Option.bind_eq_some_iff.1 h
    obtain rfl := Option.some.inj h
    rw [List.filterMap_cons_some hb, ← ih hothers]

/-! What the items of one kind mean has no part of another kind. -/

section Parts

variable {α : Type} (part? : Entry → Option α)

theorem size_part {size : Int × Int} (h : ∀ w h, part? (.dimension w h) = none) :
    [Item.dimension size.1 size.2].filterMap (fun i => i.meant?.bind part?) = [] := by
  rw [List.filterMap_eq_nil_iff]
  intro i hi
  obtain rfl := List.mem_singleton.1 hi
  simp only [Item.meant?, Entry.dimension?]
  split <;> simp [Except.toOption, h]

theorem robot_part {robot : Option (Int × Int × Option String)}
    (h : ∀ x y f, part? (.robot x y f) = none) :
    (robot.map fun (x, y, facing) => Item.robot x y facing).toList.filterMap
      (fun i => i.meant?.bind part?) = [] := by
  cases robot <;> simp [Item.meant?, h]

theorem walls_part {walls : List (Int × Int × String)} (h : ∀ x y s, part? (.wall x y s) = none) :
    (walls.map fun (x, y, side) => Item.wall x y side).filterMap
      (fun i => i.meant?.bind part?) = [] := by
  simp [List.filterMap_eq_nil_iff, Item.meant?, h]

theorem beepers_part {beepers : List (Int × Int × Option Int)}
    (h : ∀ x y n, part? (.beepers x y n) = none) :
    (beepers.map fun (x, y, count) => Item.beepers x y count).filterMap
      (fun i => i.meant?.bind part?) = [] := by
  rw [List.filterMap_eq_nil_iff]
  simp only [List.mem_map]
  rintro _ ⟨⟨x, y, count⟩, -, rfl⟩
  simp only [Item.meant?, Entry.beepers?]
  split <;> simp [Except.toOption, h]

theorem bag_part {bag : Option Amount} (h : ∀ n, part? (.bag n) = none) :
    (bag.map Item.bag).toList.filterMap (fun i => i.meant?.bind part?) = [] := by
  rcases bag with _ | (n | word)
  · rfl
  · by_cases hn : n < 0 <;> simp [Item.meant?, hn, h]
  · simp [Item.meant?, h]

end Parts

/-- Nothing that is meant by a roster replaces anything else. -/
theorem oneOfEach {entries : List Entry} (h : r.items.mapM Item.meant? = some entries) :
    OneOfEach entries := by
  have hitems : r.items = [.dimension r.size.1 r.size.2] ++
      (r.robot.map fun (x, y, facing) => Item.robot x y facing).toList ++
      r.walls.map (fun (x, y, side) => .wall x y side) ++
      r.beepers.map (fun (x, y, count) => .beepers x y count) ++ (r.bag.map .bag).toList := by
    simp [items]
  have hone {α : Type} (part? : Item → Option α) {items : List Item} (h : items.length ≤ 1) :
      (items.filterMap part?).length ≤ 1 := (List.length_filterMap_le _ _).trans h
  have htoList {α : Type} (o : Option α) : o.toList.length ≤ 1 := by
    cases o <;> simp
  obtain rfl := mapM_eq_filterMap h
  -- only the items of one kind count towards each number, and of those there is at most one
  constructor
  all_goals
    rw [List.filterMap_filterMap, hitems, List.filterMap_append, List.filterMap_append,
      List.filterMap_append, List.filterMap_append]
  · rw [robot_part _ fun _ _ _ => rfl, walls_part _ fun _ _ _ => rfl,
      beepers_part _ fun _ _ _ => rfl, bag_part _ fun _ => rfl]
    simp only [List.append_nil]
    exact hone _ (Nat.le_refl 1)
  · rw [size_part _ fun _ _ => rfl, walls_part _ fun _ _ _ => rfl,
      beepers_part _ fun _ _ _ => rfl, bag_part _ fun _ => rfl]
    simpa using hone _ (htoList _)
  · rw [size_part _ fun _ _ => rfl, robot_part _ fun _ _ _ => rfl,
      walls_part _ fun _ _ _ => rfl, beepers_part _ fun _ _ _ => rfl]
    simpa using hone _ (htoList _)

/-- What is meant by a roster can be told, if its cells can. -/
theorem tellable {entries : List Entry} (hproper : ∀ i ∈ r.items, i.Proper)
    (htell : ∀ i ∈ r.items, i.Tellable) (h : r.items.mapM Item.meant? = some entries) :
    ∀ e ∈ entries, e.Tellable := by
  obtain rfl := mapM_eq_filterMap h
  intro e he
  obtain ⟨i, hi, hmeant⟩ := List.mem_filterMap.1 he
  exact Item.tellable_of_meant? (hproper i hi) (htell i hi) hmeant

/-- The lines of a roster, in any order, and a mapping that tells the same are read as the same
world. -/
theorem formats_agree [Yaml.Reader] (r : Roster) (bag : Option Int)
    (hproper : ∀ i ∈ r.items, i.Proper)
    (htell : ∀ i ∈ r.items, i.Tellable) (items : List Item) (hitems : items.Perm r.items)
    (text : String) (htext : Text.lines text.toList = items.map fun i => i.line.toList)
    (fields : List (Value × Value)) (htold : r.Told fields) (yaml : String)
    (hyaml : Yaml.Reader.ofText yaml = .ok (.map fields)) :
    SameWorld (readWorldAs .lines bag text) (readWorldAs .values bag yaml) := by
  have hlines := Lines.follows_items (fun i hi => hproper i (hitems.mem_iff.1 hi)) 1
  have hvalues := r.follows_values hproper htold
  have hread : readWorldAs .values bag yaml = Values.readEntries fields >>= describe bag := by
    simp only [readWorldAs, Values.readText, hyaml, Values.read]
  have hwritten : readWorldAs .lines bag text =
      Lines.readEntries 1 (items.map fun i => i.line.toList) >>= describe bag := by
    rw [readWorldAs, Lines.read, htext]
  rw [hwritten, hread]
  rcases mapM_perm hitems with ⟨hnone, hnone'⟩ | ⟨entries, listed, hentries, hlisted, hperm⟩
  · -- an item of which nothing is meant: neither format goes on to a description
    rw [hnone] at hlines
    rw [hnone'] at hvalues
    obtain ⟨e, he⟩ := hlines.eq_error
    obtain ⟨e', he'⟩ := hvalues.eq_error
    rw [he, he']
    exact .inr ⟨e, e', rfl, rfl⟩
  · rw [hentries] at hlines
    rw [hlisted] at hvalues
    rw [hlines.eq_ok, hvalues.eq_ok, ok_bind, ok_bind]
    exact (describe_perm hperm.symm (oneOfEach hlisted) (tellable hproper htell hlisted)).symm

end Roster

/-! ### A world in both formats -/

namespace Value

mutual

/-- Equality of values that are put together from integers and texts. -/
def agrees : Value → Value → Bool
  | int m, int n => m == n
  | text s, text t => s == t
  | list vs, list ws => agreesAll vs ws
  | map es, map fs => agreesEntries es fs
  | _, _ => false

/-- Equality of such values, one by one. -/
def agreesAll : List Value → List Value → Bool
  | [], [] => true
  | v :: vs, w :: ws => agrees v w && agreesAll vs ws
  | _, _ => false

/-- Equality of such entries, one by one. -/
def agreesEntries : List (Value × Value) → List (Value × Value) → Bool
  | [], [] => true
  | (k, v) :: es, (l, w) :: fs => agrees k l && agrees v w && agreesEntries es fs
  | _, _ => false

end

mutual

theorem eq_of_agrees : ∀ {v w : Value}, agrees v w = true → v = w
  | int m, int n, h => by rw [eq_of_beq h]
  | text s, text t, h => by rw [eq_of_beq h]
  | list vs, list ws, h => by rw [eq_of_agreesAll h]
  | map es, map fs, h => by rw [eq_of_agreesEntries h]

theorem eq_of_agreesAll : ∀ {vs ws : List Value}, agreesAll vs ws = true → vs = ws
  | [], [], _ => rfl
  | v :: vs, w :: ws, h => by
    rw [agreesAll, Bool.and_eq_true] at h
    rw [eq_of_agrees h.1, eq_of_agreesAll h.2]

theorem eq_of_agreesEntries : ∀ {es fs : List (Value × Value)},
    agreesEntries es fs = true → es = fs
  | [], [], _ => rfl
  | (k, v) :: es, (l, w) :: fs, h => by
    rw [agreesEntries, Bool.and_eq_true, Bool.and_eq_true] at h
    rw [eq_of_agrees h.1.1, eq_of_agrees h.1.2, eq_of_agreesEntries h.2]

end

/-- The value of a text is one that is put together from integers and texts. -/
def isLoaded [Yaml.Reader] (text : String) (v : Value) : Bool :=
  match Yaml.Reader.ofText text with
  | .ok w => w.agrees v
  | .error _ => false

theorem eq_of_isLoaded [Yaml.Reader] {text : String} {v : Value} (h : isLoaded text v = true) :
    Yaml.Reader.ofText text = .ok v := by
  unfold isLoaded at h
  split at h
  · next w hw => rw [hw, eq_of_agrees h]
  · cases h

end Value

namespace Roster

/-- A robot before a wall, and beepers behind it. -/
def behindWall : Roster :=
  ⟨(2, 1), some (1, 1, some "north"), [(1, 1, "east")], [(2, 1, some 3), (2, 1, none)],
    some (.endless "inf")⟩

def behindWallItems : List Item :=
  [.bag (.endless "inf"), .beepers 2 1 none, .wall 1 1 "east", .robot 1 1 (some "north"),
    .beepers 2 1 (some 3), .dimension 2 1]

def behindWallLines : String :=
  "BeeperBag: inf\nBeeper: (2, 1)\nWall: (1, 1) east\nKarel: (1, 1) north\nBeeper: (2, 1) 3\n" ++
    "Dimension: (2, 1)\n"

def behindWallValues : String :=
  "dimension: [2, 1]\nkarel:\n  x: 1\n  y: 1\n  direction: north\nwalls:\n- x: 1\n  y: 1\n" ++
    "  side: east\nbeepers:\n- x: 2\n  y: 1\n  count: 3\n- x: 2\n  y: 1\nbag: inf\n"

def behindWallFields : List (Value × Value) :=
  [(.text "dimension", .list [.int 2, .int 1]),
    (.text "karel", .map [(.text "x", .int 1), (.text "y", .int 1), (.text "direction", .text "north")]),
    (.text "walls", .list [.map [(.text "x", .int 1), (.text "y", .int 1),
      (.text "side", .text "east")]]),
    (.text "beepers", .list [.map [(.text "x", .int 2), (.text "y", .int 1), (.text "count", .int 3)],
      .map [(.text "x", .int 2), (.text "y", .int 1)]]),
    (.text "bag", .text "inf")]

theorem behindWall_told : behindWall.Told behindWallFields where
  size := rfl
  robot := ⟨_, rfl, _, rfl, ⟨rfl, rfl⟩, rfl⟩
  walls := .inr ⟨_, rfl, .cons ⟨_, rfl, ⟨rfl, rfl⟩, rfl⟩ .nil⟩
  beepers := .inr ⟨_, rfl, .cons ⟨_, rfl, ⟨rfl, rfl⟩, rfl⟩ (.cons ⟨_, rfl, ⟨rfl, rfl⟩, rfl⟩ .nil)⟩
  bag := rfl

theorem behindWall_proper : ∀ i ∈ behindWall.items, i.Proper ∧ i.Tellable := by
  have hsmall : ∀ n ∈ [0, 1, 2, 3], Text.isWritable n = true := by decide +kernel
  have hnorth : Item.OnLine "north" :=
    ⟨by decide, Lines.unbroken_of_any (by decide), by decide⟩
  have heast : Item.OnLine "east" :=
    ⟨by decide, Lines.unbroken_of_any (by decide), by decide⟩
  simp [behindWall, items, Item.Proper, Item.Tellable, hsmall, hnorth, heast, Entry.infiniteWords]

open scoped Yaml.Plain

/-- A world with everything in it. -/
theorem formats_agree_behindWall :
    (∀ i ∈ behindWall.items, i.Proper ∧ i.Tellable) ∧ behindWallItems.Perm behindWall.items ∧
      Text.lines behindWallLines.toList = behindWallItems.map (fun i => i.line.toList) ∧
      behindWall.Told behindWallFields ∧
      Yaml.Reader.ofText behindWallValues = .ok (.map behindWallFields) ∧
      SameWorld (readWorldAs .lines none behindWallLines)
        (readWorldAs .values none behindWallValues) := by
  have hperm : behindWallItems.Perm behindWall.items := by decide
  have hlines : Text.lines behindWallLines.toList =
      behindWallItems.map (fun i => i.line.toList) := by decide +kernel
  have hload : Yaml.Reader.ofText behindWallValues = .ok (.map behindWallFields) :=
    Value.eq_of_isLoaded (by decide +kernel)
  exact ⟨behindWall_proper, hperm, hlines, behindWall_told, hload,
    formats_agree behindWall none (fun i hi => (behindWall_proper i hi).1)
      (fun i hi => (behindWall_proper i hi).2) behindWallItems hperm behindWallLines hlines
      behindWallFields behindWall_told behindWallValues hload⟩

/-! ### At the edge of what can be told -/

/-- The least integer that can be written. -/
def lowest : Int :=
  1 - (Nat.pow 10 Text.maxDigits : Nat)

theorem lowest_writable : Text.isWritable lowest = true ∧ Text.isWritable (lowest - 1) = false ∧
    lowest < 1 := by
  have habs : ∀ k : Nat, 0 < k → (1 - (k : Int)).natAbs < k ∧ (1 - (k : Int) - 1).natAbs = k ∧
      1 - (k : Int) < 1 := by
    intro k hk
    omega
  have hpos : ∀ k : Nat, 0 < Nat.pow 10 k := fun k => Nat.pow_pos (by decide)
  obtain ⟨hlow, hlower, hone⟩ := habs _ (hpos Text.maxDigits)
  refine ⟨Text.isWritable_iff.2 hlow, ?_, hone⟩
  rw [← Bool.not_eq_true, Text.isWritable_iff, lowest, hlower]
  exact lt_irrefl _

/-- The robot on the least first coordinate that can be written, in a world of one cell. -/
def edge : Roster :=
  ⟨(1, 1), some (lowest, 1, none), [], [], none⟩

/-- The mapping that tells the same. -/
def edgeFields : List (Value × Value) :=
  [(.text "dimension", .list [.int 1, .int 1]),
    (.text "karel", .map [(.text "x", .int lowest), (.text "y", .int 1)])]

theorem edge_proper : ∀ i ∈ edge.items, i.Proper := by
  have hone : Text.isWritable 1 = true := by decide +kernel
  simp [edge, items, Item.Proper, lowest_writable, hone]

theorem edge_told : edge.Told edgeFields where
  size := rfl
  robot := ⟨_, rfl, _, rfl, ⟨rfl, rfl⟩, rfl⟩
  walls := .inl ⟨rfl, rfl⟩
  beepers := .inl ⟨rfl, rfl⟩
  bag := rfl

/-- A robot too far outside of a world to be told of. -/
theorem describe_tooFar {x : Int} (hx : x < 1) (h : Text.isWritable (x - 1) = false) :
    describe none [.dimension 1 1, .robot x 1 .east] = .error (.broken .badNumber) := by
  have hinside : Description.inside 1 1 ⟨x - 1, 0⟩ = false := by
    simp only [Description.inside, Bool.and_eq_false_iff, decide_eq_false_iff_not]
    omega
  simp [describe, Draft.addAll, Draft.add, Draft.finish, Draft.empty, Draft.cellAt,
    Description.checked, Description.problem?, hinside, LayoutError.ofFormat,
    FormatError.Cause.isWritable, FormatError.Cause.numbers, h, mapError_error]

/-- Both formats break off where the robot is one cell beyond what can be told. -/
theorem formats_edge : (∀ i ∈ edge.items, i.Proper) ∧ edge.Told edgeFields ∧
    readWorldAs .lines none ("\n".intercalate (edge.items.map Item.line)) =
      .error (.broken .badNumber) ∧
    Values.read none (.map edgeFields) = .error (.broken .badNumber) ∧
    ¬ SameWorld (readWorldAs .lines none ("\n".intercalate (edge.items.map Item.line)))
      (Values.read none (.map edgeFields)) := by
  have hmeant : edge.items.mapM Item.meant? = some [.dimension 1 1, .robot lowest 1 .east] := rfl
  have hdescribe := describe_tooFar lowest_writable.2.2 lowest_writable.2.1
  have hlines : readWorldAs .lines none ("\n".intercalate (edge.items.map Item.line)) =
      .error (.broken .badNumber) := by
    have hread := Lines.follows_items edge_proper 1
    rw [hmeant] at hread
    rw [readWorldAs, Lines.read, Lines.lines_ofItems edge_proper, hread.eq_ok, ok_bind, hdescribe]
  have hvalues : Values.read none (.map edgeFields) = .error (.broken .badNumber) := by
    have hread := follows_values edge_proper edge_told
    rw [hmeant] at hread
    simp only [Values.read]
    rw [hread.eq_ok, ok_bind, hdescribe]
  refine ⟨edge_proper, edge_told, hlines, hvalues, ?_⟩
  rw [hlines, hvalues]
  rintro (⟨d, d', h, -⟩ | ⟨e, e', h, -⟩)
  · cases h
  · cases h

end Roster

end GridRobot
