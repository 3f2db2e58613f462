import GridRobot.Proofs.World.Invariant
import GridRobot.Proofs.World.Written
import GridRobot.World.Format

/-!
# World files that cannot be read to an end

Almost everything that can be wrong with a world file is told as an error of its format. Here is
what is not: a number on a line with too many digits, an infinite number among values, a reader of YAML
that breaks off, and an error that would have to tell a number too long to be written.

## Main definitions

* `Lines.Overlong` says that reading the lines of a text comes to a number that is too long.
* `Values.MeetsInfinity` says that reading a mapping comes to an infinite number.
* `Untold` says that what is wrong with some entries cannot be told.
* `BreaksOff` collects the ways in which the reading of a text breaks off.

## Main statements

* `Lines.readEntries_broken_iff`, `Values.readEntries_broken_iff` and `describe_broken_iff`: there
  are no other ways.
* `readWorldAs_broken_iff`: nor for both formats together.
-/

namespace GridRobot

namespace Lines

variable {cs line : List Char} {b : Breakdown} {p : Problem}

theorem integerOf_eq_error {written : Bool × List Char} :
    integerOf written = .error p ↔ p = .numberTooLong ∧ Text.maxDigits < written.2.length := by
  unfold integerOf Text.readDigits
  by_cases h : written.2.length ≤ Text.maxDigits
  · have hnot : ¬ Text.maxDigits < written.2.length := not_lt.2 h
    simp [h, hnot]
  · have hlong : Text.maxDigits < written.2.length := not_le.1 h
    simp [h, hlong, eq_comm]

/-- What an entry says begins with a point that has a coordinate with too many digits. -/
def LongPoint (cs : List Char) : Prop :=
  ∃ x y tail, splitPoint cs = some (x, y, tail) ∧
    (Text.maxDigits < x.2.length ∨ Text.maxDigits < y.2.length)

theorem readPoint_tooLong_iff : readPoint cs = .error .numberTooLong ↔ LongPoint cs := by
  unfold readPoint LongPoint
  cases hsplit : splitPoint cs with
  | none => simp
  | some point =>
    obtain ⟨x, y, tail⟩ := point
    constructor
    · intro h
      refine ⟨x, y, tail, rfl, ?_⟩
      rcases bind_eq_error.1 h with hx | ⟨a, -, h⟩
      · exact .inl (integerOf_eq_error.1 hx).2
      · rcases bind_eq_error.1 h with hy | ⟨b, -, h⟩
        · exact .inr (integerOf_eq_error.1 hy).2
        · cases h
    · rintro ⟨x', y', tail', hpoint, hlong⟩
      obtain ⟨rfl, rfl, rfl⟩ : x = x' ∧ y = y' ∧ tail = tail' := by simpa using hpoint
      show (integerOf x >>= fun x => integerOf y >>= fun y => .ok (x, y, tail)) = _
      cases hx : integerOf x with
      | error p =>
        obtain ⟨rfl, -⟩ := integerOf_eq_error.1 hx
        rfl
      | ok a =>
        have hshort : ¬ Text.maxDigits < x.2.length := fun h => by
          rw [integerOf_eq_error.2 ⟨rfl, h⟩] at hx
          cases hx
        rw [ok_bind, integerOf_eq_error.2 ⟨rfl, hlong.resolve_left hshort⟩]
        rfl

/-- Words of the entries that begin with a point. -/
def pointWords : List String :=
  ["dimension", "wall", "beeper", "karel"]

/-- A line is an entry with a coordinate that has too many digits. -/
def LongLine (line : List Char) : Prop :=
  ∃ word rest, splitEntry line = some (word, rest) ∧
    String.ofList (Text.lowerCase word) ∈ pointWords ∧ LongPoint rest

theorem made_ne_tooLong {r : Except FormatError.Cause Entry} : made r ≠ .error .numberTooLong := by
  cases r <;> simp [made]

theorem readCount_ne_tooLong {tail : List Char} : readCount tail ≠ .error .numberTooLong := by
  unfold readCount
  split
  · simp
  · split <;> simp

/-- What follows a point is never a number too long. -/
theorem readPoint_then {α : Type} {f : Int × Int × List Char → Except Problem α}
    (hf : ∀ p, f p ≠ .error .numberTooLong) :
    readPoint cs >>= f = .error .numberTooLong ↔ LongPoint cs := by
  rw [bind_eq_error, readPoint_tooLong_iff]
  exact or_iff_left fun ⟨p, _, h⟩ => hf p h

theorem entryOf_tooLong_iff {word rest : List Char} : entryOf word rest = .error .numberTooLong ↔
    String.ofList (Text.lowerCase word) ∈ pointWords ∧ LongPoint rest := by
  unfold entryOf
  split
  · next h =>
    rw [readPoint_then fun p => made_ne_tooLong]
    simp [h, pointWords]
  · next h =>
    rw [readPoint_then fun p => made_ne_tooLong]
    simp [h, pointWords]
  · next h =>
    rw [readPoint_then fun p => ?_]
    · simp [h, pointWords]
    · rw [Ne, bind_eq_error]
      rintro (h | ⟨n, -, h⟩)
      · exact readCount_ne_tooLong h
      · exact made_ne_tooLong h
  · next h =>
    rw [readPoint_then fun p => made_ne_tooLong]
    simp [h, pointWords]
  · next h => simp [h, pointWords, made_ne_tooLong]
  · next h => simp [h, pointWords]
  · next hdimension hwall hbeeper hkarel hbag hspeed => simp_all [pointWords]

theorem readEntry_tooLong_iff : readEntry line = .error .numberTooLong ↔ LongLine line := by
  unfold readEntry LongLine
  by_cases hempty : line.isEmpty = true
  · obtain rfl := List.isEmpty_iff.1 hempty
    simp [splitEntry, Text.trimStart]
  · rw [if_neg hempty]
    cases hsplit : splitEntry line with
    | none => simp
    | some entry =>
      obtain ⟨word, rest⟩ := entry
      simp [entryOf_tooLong_iff]

/-- Among some lines there is one with a number that is too long, and all before it are entries. -/
def Overlong (lines : List (List Char)) : Prop :=
  ∃ before line after, lines = before ++ line :: after ∧
    (∀ l ∈ before, ∃ e, readEntry (content l) = .ok e) ∧ LongLine (content line)

theorem overlong_cons {line : List Char} {rest : List (List Char)} : Overlong (line :: rest) ↔
    LongLine (content line) ∨ (∃ e, readEntry (content line) = .ok e) ∧ Overlong rest := by
  constructor
  · rintro ⟨before, long, after, hlines, hbefore, hlong⟩
    cases before with
    | nil =>
      obtain ⟨rfl, rfl⟩ := List.cons.inj hlines
      exact .inl hlong
    | cons l before =>
      obtain ⟨rfl, rfl⟩ := List.cons.inj hlines
      exact .inr ⟨hbefore line (by simp),
        before, long, after, rfl, fun l hl => hbefore l (by simp [hl]), hlong⟩
  · rintro (hlong | ⟨hline, before, long, after, rfl, hbefore, hlong⟩)
    · exact ⟨[], line, rest, rfl, by simp, hlong⟩
    · refine ⟨line :: before, long, after, rfl, ?_, hlong⟩
      simpa using ⟨hline, hbefore⟩

/-- The reading of lines breaks off only at a number that is too long. -/
theorem readEntries_broken_iff {lines : List (List Char)} {number : Nat} :
    readEntries number lines = .error (.broken b) ↔ b = .badNumber ∧ Overlong lines := by
  induction lines generalizing number with
  | nil => simp [readEntries, Overlong]
  | cons line rest ih =>
    rw [readEntries, overlong_cons, ← readEntry_tooLong_iff]
    cases hread : readEntry (content line) with
    | error p =>
      cases p with
      | cause c => simp
      | numberTooLong => simp [eq_comm]
    | ok entry =>
      simp only [bind_eq_error, ih]
      simp

end Lines

/-! ### Values -/

/-- A value is an infinite number. -/
def Value.IsInfinite (v : Value) : Prop :=
  ∃ x negative, v = .float x ∧ Double.ofFloat x = .infinite negative

theorem Value.toInteger_broken_iff {v : Value} {b : Breakdown} :
    v.toInteger = .error (.broken b) ↔ b = .tooGreat ∧ v.IsInfinite := by
  unfold toInteger IsInfinite
  cases v with
  | float x => cases h : Double.ofFloat x <;> simp [h, eq_comm]
  | text t =>
    simp only
    split <;> simp
  | _ => simp

namespace Values

variable {fields : List (Value × Value)} {v : Value} {b : Breakdown} {key : String}

theorem used_broken_iff {α : Type} {r : Except Value.Misuse α} :
    used r = .error (.broken b) ↔ r = .error (.broken b) := by
  rw [used, mapError_eq_error]
  constructor
  · rintro ⟨m, rfl, hm⟩
    cases m <;> simp_all [ofMisuse]
  · rintro rfl
    exact ⟨_, rfl, rfl⟩

theorem made_ne_broken {r : Except FormatError.Cause Entry} : made r ≠ .error (.broken b) := by
  rw [made, Ne, mapError_eq_error]
  rintro ⟨c, -, hc⟩
  unfold ofCause at hc
  split at hc
  · cases hc
  · cases hc

theorem require_ne_broken : Value.require key fields ≠ .error (.broken b) := by
  unfold Value.require
  split <;> simp

theorem entries_ne_broken : v.entries ≠ .error (.broken b) := by
  unfold Value.entries
  split <;> simp

theorem parts_ne_broken : v.parts ≠ .error (.broken b) := by
  unfold Value.parts
  split <;> simp

theorem wordOf_ne_broken : wordOf v ≠ .error (.broken b) := by
  unfold wordOf
  split <;> simp

/-- A mapping has an infinite number under a key. -/
def InfiniteAt (key : String) (fields : List (Value × Value)) : Prop :=
  ∃ v, Value.find? key fields = some v ∧ v.IsInfinite

theorem require_eq_ok : Value.require key fields = .ok v ↔ Value.find? key fields = some v := by
  unfold Value.require
  cases Value.find? key fields <;> simp

theorem used_eq_ok {α : Type} {r : Except Value.Misuse α} {a : α} : used r = .ok a ↔ r = .ok a :=
  mapError_eq_ok

theorem entries_eq_ok {inner : List (Value × Value)} : v.entries = .ok inner ↔ v = .map inner := by
  unfold Value.entries
  split <;> simp_all

/-- A value that has to be there for something to break off. -/
theorem require_then {α : Type} {f : Value → Except LayoutError α} :
    used (Value.require key fields) >>= f = .error (.broken b) ↔
      ∃ v, Value.find? key fields = some v ∧ f v = .error (.broken b) := by
  rw [bind_eq_error, used_broken_iff]
  simp only [require_ne_broken, false_or, used_eq_ok, require_eq_ok]

/-- A mapping that has to be one for something to break off. -/
theorem entries_then {α : Type} {f : List (Value × Value) → Except LayoutError α} :
    used v.entries >>= f = .error (.broken b) ↔
      ∃ inner, v = .map inner ∧ f inner = .error (.broken b) := by
  rw [bind_eq_error, used_broken_iff]
  simp only [entries_ne_broken, false_or, used_eq_ok, entries_eq_ok]

theorem integerAt_broken_iff :
    integerAt key fields = .error (.broken b) ↔ b = .tooGreat ∧ InfiniteAt key fields := by
  rw [integerAt, require_then]
  simp only [used_broken_iff, Value.toInteger_broken_iff, InfiniteAt]
  constructor
  · rintro ⟨v, hv, hb, hinf⟩
    exact ⟨hb, v, hv, hinf⟩
  · rintro ⟨hb, v, hv, hinf⟩
    exact ⟨v, hv, hb, hinf⟩

/-- A mapping has an infinite coordinate; the first one is looked at first. -/
def InfiniteCell (fields : List (Value × Value)) : Prop :=
  InfiniteAt "x" fields ∨ (∃ n, integerAt "x" fields = .ok n) ∧ InfiniteAt "y" fields

theorem cell_then {α : Type} {f : Int → Int → Except LayoutError α} :
    (integerAt "x" fields >>= fun x => integerAt "y" fields >>= fun y => f x y) =
        .error (.broken b) ↔
      (b = .tooGreat ∧ InfiniteCell fields) ∨ ∃ x y, integerAt "x" fields = .ok x ∧
        integerAt "y" fields = .ok y ∧ f x y = .error (.broken b) := by
  simp only [bind_eq_error, integerAt_broken_iff, InfiniteCell]
  constructor
  · rintro (⟨hb, hx⟩ | ⟨x, hx, ⟨hb, hy⟩ | ⟨y, hy, h⟩⟩)
    · exact .inl ⟨hb, .inl hx⟩
    · exact .inl ⟨hb, .inr ⟨⟨x, hx⟩, hy⟩⟩
    · exact .inr ⟨x, y, hx, hy, h⟩
  · rintro (⟨hb, hx | ⟨⟨x, hx⟩, hy⟩⟩ | ⟨x, y, hx, hy, h⟩)
    · exact .inl ⟨hb, hx⟩
    · exact .inr ⟨x, hx, .inl ⟨hb, hy⟩⟩
    · exact .inr ⟨x, hx, .inr ⟨y, hy, h⟩⟩

/-- A side of the world that is infinite; the width is looked at first. -/
def InfiniteSize (fields : List (Value × Value)) : Prop :=
  ∃ v width height, Value.find? "dimension" fields = some v ∧ v.parts = .ok [width, height] ∧
    (width.IsInfinite ∨ (∃ n, width.toInteger = .ok n) ∧ height.IsInfinite)

/-- A robot, or a wall, with an infinite coordinate. -/
def InfinitePlace (v : Value) : Prop :=
  ∃ fields, v = .map fields ∧ InfiniteCell fields

/-- Beepers with an infinite coordinate, or an infinite number of them. -/
def InfiniteBeepers (v : Value) : Prop :=
  ∃ fields, v = .map fields ∧ (InfiniteCell fields ∨
    (∃ x y, integerAt "x" fields = .ok x ∧ integerAt "y" fields = .ok y) ∧ InfiniteAt "count" fields)

/-- A cell that is looked at before something that never breaks off. -/
theorem cell_only {α : Type} {f : Int → Int → Except LayoutError α}
    (hf : ∀ x y, f x y ≠ .error (.broken b)) :
    (integerAt "x" fields >>= fun x => integerAt "y" fields >>= fun y => f x y) =
        .error (.broken b) ↔ b = .tooGreat ∧ InfiniteCell fields := by
  rw [cell_then]
  exact or_iff_left fun ⟨x, y, _, _, h⟩ => hf x y h

theorem exists_cell {P : List (Value × Value) → Prop} :
    (∃ inner, v = .map inner ∧ b = .tooGreat ∧ P inner) ↔
      b = .tooGreat ∧ ∃ inner, v = .map inner ∧ P inner := by
  constructor
  · rintro ⟨inner, hv, hb, hP⟩
    exact ⟨hb, inner, hv, hP⟩
  · rintro ⟨hb, inner, hv, hP⟩
    exact ⟨inner, hv, hb, hP⟩

theorem dimensionOf_broken_iff :
    dimensionOf fields = .error (.broken b) ↔ b = .tooGreat ∧ InfiniteSize fields := by
  rw [dimensionOf, require_then]
  constructor
  · rintro ⟨v, hv, h⟩
    rcases bind_eq_error.1 h with h | ⟨parts, hparts, h⟩
    · exact absurd (used_broken_iff.1 h) parts_ne_broken
    rw [used_eq_ok] at hparts
    split at h
    · next width height =>
      rcases bind_eq_error.1 h with h | ⟨w, hw, h⟩
      · obtain ⟨hb, hinf⟩ := Value.toInteger_broken_iff.1 (used_broken_iff.1 h)
        exact ⟨hb, v, width, height, hv, hparts, .inl hinf⟩
      rcases bind_eq_error.1 h with h | ⟨_, -, h⟩
      · obtain ⟨hb, hinf⟩ := Value.toInteger_broken_iff.1 (used_broken_iff.1 h)
        exact ⟨hb, v, width, height, hv, hparts, .inr ⟨⟨w, used_eq_ok.1 hw⟩, hinf⟩⟩
      · exact absurd h made_ne_broken
    · cases h
  · rintro ⟨rfl, v, width, height, hv, hparts, hinf⟩
    refine ⟨v, hv, bind_eq_error.2 (.inr ⟨_, used_eq_ok.2 hparts, bind_eq_error.2 ?_⟩)⟩
    rcases hinf with hwidth | ⟨⟨w, hw⟩, hheight⟩
    · exact .inl (used_broken_iff.2 (Value.toInteger_broken_iff.2 ⟨rfl, hwidth⟩))
    · refine .inr ⟨w, used_eq_ok.2 hw, bind_eq_error.2 (.inl ?_)⟩
      exact used_broken_iff.2 (Value.toInteger_broken_iff.2 ⟨rfl, hheight⟩)

theorem wallOf_broken_iff : wallOf v = .error (.broken b) ↔ b = .tooGreat ∧ InfinitePlace v := by
  have hside : ∀ (inner : List (Value × Value)) (x y : Int),
      (used (Value.require "side" inner) >>= fun side => wordOf side >>= fun word =>
        made (Entry.wall? x y word)) ≠ .error (.broken b) := by
    intro inner x y
    rw [Ne, require_then]
    rintro ⟨side, -, h⟩
    rcases bind_eq_error.1 h with h | ⟨word, -, h⟩
    · exact wordOf_ne_broken h
    · exact made_ne_broken h
  rw [wallOf, entries_then, InfinitePlace, ← exists_cell]
  exact exists_congr fun inner => and_congr_right fun _ => cell_only (hside inner)

theorem beepersOf_broken_iff :
    beepersOf v = .error (.broken b) ↔ b = .tooGreat ∧ InfiniteBeepers v := by
  have hcount : ∀ (inner : List (Value × Value)) (x y : Int),
      (used ((Value.find? "count" inner).getD (.int 1)).toInteger >>= fun count =>
        made (Entry.beepers? x y count)) = .error (.broken b) ↔
        b = .tooGreat ∧ InfiniteAt "count" inner := by
    intro inner x y
    rw [bind_eq_error, used_broken_iff, Value.toInteger_broken_iff, InfiniteAt]
    simp only [made_ne_broken, and_false, exists_false, or_false]
    cases Value.find? "count" inner with
    | none => simp [Value.IsInfinite]
    | some v => simp
  rw [beepersOf, entries_then, InfiniteBeepers, ← exists_cell]
  refine exists_congr fun inner => and_congr_right fun _ => cell_then.trans ?_
  simp only [hcount inner]
  constructor
  · rintro (⟨hb, hcell⟩ | ⟨x, y, hx, hy, hb, hinf⟩)
    · exact ⟨hb, .inl hcell⟩
    · exact ⟨hb, .inr ⟨⟨x, y, hx, hy⟩, hinf⟩⟩
  · rintro ⟨hb, hcell | ⟨⟨x, y, hx, hy⟩, hinf⟩⟩
    · exact .inl ⟨hb, hcell⟩
    · exact .inr ⟨x, y, hx, hy, hb, hinf⟩

theorem robotOf_broken_iff : robotOf fields = .error (.broken b) ↔
    b = .tooGreat ∧ ∃ v, Value.find? "karel" fields = some v ∧ InfinitePlace v := by
  have hfacing : ∀ (inner : List (Value × Value)) (x y : Int),
      (wordOf ((Value.find? "direction" inner).getD (.text "east")) >>= fun facing =>
        made (Entry.robot? x y facing) >>= fun e => .ok [e]) ≠ .error (.broken b) := by
    intro inner x y h
    rcases bind_eq_error.1 h with h | ⟨word, -, h⟩
    · exact wordOf_ne_broken h
    rcases bind_eq_error.1 h with h | ⟨e, -, h⟩
    · exact made_ne_broken h
    · cases h
  have hplace : ∀ v : Value, (used v.entries >>= fun inner => integerAt "x" inner >>= fun x =>
      integerAt "y" inner >>= fun y =>
        wordOf ((Value.find? "direction" inner).getD (.text "east")) >>= fun facing =>
          made (Entry.robot? x y facing) >>= fun e => .ok [e]) = .error (.broken b) ↔
      b = .tooGreat ∧ InfinitePlace v := by
    intro v
    rw [entries_then, InfinitePlace, ← exists_cell]
    exact exists_congr fun inner => and_congr_right fun _ => cell_only (hfacing inner)
  unfold robotOf
  cases hv : Value.find? "karel" fields with
  | none => simp
  | some v =>
    simp only [Option.some.injEq, exists_eq_left']
    cases v with
    | null => simp [InfinitePlace]
    | _ => exact hplace _

theorem itemsOf_ne_broken : itemsOf key fields ≠ .error (.broken b) := by
  unfold itemsOf
  split
  · simp
  · split
    · exact fun h => parts_ne_broken (used_broken_iff.1 h)
    · simp

theorem bagOf_ne_broken : bagOf fields ≠ .error (.broken b) := by
  unfold bagOf
  split
  · simp
  · simp
  · split
    · intro h
      rcases bind_eq_error.1 h with h | ⟨e, -, h⟩
      · exact made_ne_broken h
      · cases h
    · simp [unwritable, ofMisuse]

/-- Reading a mapping comes to an infinite number: everything that is looked at before it can be
read. -/
inductive MeetsInfinity (fields : List (Value × Value)) : Prop where
  | size (h : InfiniteSize fields)
  | robot {size : Entry} {v : Value} (hsize : dimensionOf fields = .ok size)
      (hv : Value.find? "karel" fields = some v) (h : InfinitePlace v)
  | wall {size : Entry} {robot : List Entry} {before after : List Value} {v : Value}
      (hsize : dimensionOf fields = .ok size) (hrobot : robotOf fields = .ok robot)
      (hitems : itemsOf "walls" fields = .ok (before ++ v :: after))
      (hbefore : ∀ u ∈ before, ∃ e, wallOf u = .ok e) (h : InfinitePlace v)
  | beepers {size : Entry} {robot walls : List Entry} {sides before after : List Value} {v : Value}
      (hsize : dimensionOf fields = .ok size) (hrobot : robotOf fields = .ok robot)
      (hsides : itemsOf "walls" fields = .ok sides) (hwalls : sides.mapM wallOf = .ok walls)
      (hitems : itemsOf "beepers" fields = .ok (before ++ v :: after))
      (hbefore : ∀ u ∈ before, ∃ e, beepersOf u = .ok e) (h : InfiniteBeepers v)

/-- The reading of a mapping breaks off only at an infinite number. -/
theorem readEntries_broken_iff :
    readEntries fields = .error (.broken b) ↔ b = .tooGreat ∧ MeetsInfinity fields := by
  constructor
  · intro h
    -- each part in turn: it breaks off, or it can be read and the next one is looked at
    rcases bind_eq_error.1 h with h | ⟨size, hsize, h⟩
    · obtain ⟨hb, hinf⟩ := dimensionOf_broken_iff.1 h
      exact ⟨hb, .size hinf⟩
    rcases bind_eq_error.1 h with h | ⟨robot, hrobot, h⟩
    · obtain ⟨hb, v, hv, hinf⟩ := robotOf_broken_iff.1 h
      exact ⟨hb, .robot hsize hv hinf⟩
    rcases bind_eq_error.1 h with h | ⟨sides, hsides, h⟩
    · exact absurd h itemsOf_ne_broken
    rcases bind_eq_error.1 h with h | ⟨walls, hwalls, h⟩
    · obtain ⟨before, v, after, rfl, hbefore, hv⟩ := mapM_eq_error.1 h
      obtain ⟨hb, hinf⟩ := wallOf_broken_iff.1 hv
      exact ⟨hb, .wall hsize hrobot hsides hbefore hinf⟩
    rcases bind_eq_error.1 h with h | ⟨heaps, hheaps, h⟩
    · exact absurd h itemsOf_ne_broken
    rcases bind_eq_error.1 h with h | ⟨beepers, -, h⟩
    · obtain ⟨before, v, after, rfl, hbefore, hv⟩ := mapM_eq_error.1 h
      obtain ⟨hb, hinf⟩ := beepersOf_broken_iff.1 hv
      exact ⟨hb, .beepers hsize hrobot hsides hwalls hheaps hbefore hinf⟩
    rcases bind_eq_error.1 h with h | ⟨bag, -, h⟩
    · exact absurd h bagOf_ne_broken
    · cases h
  · rintro ⟨rfl, hmeets⟩
    refine bind_eq_error.2 ?_
    cases hmeets with
    | size h => exact .inl (dimensionOf_broken_iff.2 ⟨rfl, h⟩)
    | robot hsize hv h =>
      exact .inr ⟨_, hsize, bind_eq_error.2 (.inl (robotOf_broken_iff.2 ⟨rfl, _, hv, h⟩))⟩
    | wall hsize hrobot hitems hbefore h =>
      refine .inr ⟨_, hsize, bind_eq_error.2 (.inr ⟨_, hrobot, ?_⟩)⟩
      refine bind_eq_error.2 (.inr ⟨_, hitems, bind_eq_error.2 (.inl ?_)⟩)
      exact mapM_eq_error.2 ⟨_, _, _, rfl, hbefore, wallOf_broken_iff.2 ⟨rfl, h⟩⟩
    | beepers hsize hrobot hsides hwalls hitems hbefore h =>
      refine .inr ⟨_, hsize, bind_eq_error.2 (.inr ⟨_, hrobot, ?_⟩)⟩
      refine bind_eq_error.2 (.inr ⟨_, hsides, bind_eq_error.2 (.inr ⟨_, hwalls, ?_⟩)⟩)
      refine bind_eq_error.2 (.inr ⟨_, hitems, bind_eq_error.2 (.inl ?_)⟩)
      exact mapM_eq_error.2 ⟨_, _, _, rfl, hbefore, beepersOf_broken_iff.2 ⟨rfl, h⟩⟩

end Values

/-! ### Descriptions, lines and values -/

variable {bag : Option Int} {entries : List Entry} {b : Breakdown} {format : WorldFormat}
  {text : String}

/-- What is wrong with some entries has a number in it that is too long to be told. -/
def Untold (bag : Option Int) (entries : List Entry) : Prop :=
  ∃ e, ((Draft.empty bag).addAll entries).finish = .error e ∧ e.cause.isWritable = false

theorem describe_broken_iff :
    describe bag entries = .error (.broken b) ↔ b = .badNumber ∧ Untold bag entries := by
  simp only [describe, mapError_eq_error, LayoutError.ofFormat_eq_broken]
  constructor
  · rintro ⟨e, he, hnot, rfl⟩
    exact ⟨rfl, e, he, hnot⟩
  · rintro ⟨rfl, e, he, hnot⟩
    exact ⟨e, he, hnot, rfl⟩

theorem Lines.read_broken_iff : Lines.read bag text = .error (.broken b) ↔
    b = .badNumber ∧ (Lines.Overlong (Text.lines text.toList) ∨
      ∃ entries, Lines.readEntries 1 (Text.lines text.toList) = .ok entries ∧ Untold bag entries) := by
  rw [Lines.read, bind_eq_error, Lines.readEntries_broken_iff]
  simp only [describe_broken_iff]
  constructor
  · rintro (⟨rfl, h⟩ | ⟨entries, hentries, rfl, h⟩)
    · exact ⟨rfl, .inl h⟩
    · exact ⟨rfl, .inr ⟨entries, hentries, h⟩⟩
  · rintro ⟨rfl, h | ⟨entries, hentries, h⟩⟩
    · exact .inl ⟨rfl, h⟩
    · exact .inr ⟨entries, hentries, rfl, h⟩

theorem Values.read_broken_iff {v : Value} : Values.read bag v = .error (.broken b) ↔
    ∃ fields, v = .map fields ∧ ((b = .tooGreat ∧ Values.MeetsInfinity fields) ∨
      ∃ entries, Values.readEntries fields = .ok entries ∧ b = .badNumber ∧ Untold bag entries) := by
  unfold Values.read
  split
  · next fields =>
    rw [bind_eq_error, Values.readEntries_broken_iff]
    simp only [describe_broken_iff]
    exact ⟨fun h => ⟨fields, rfl, h⟩, fun ⟨_, hfields, h⟩ => Value.map.inj hfields ▸ h⟩
  · next hnot =>
    constructor
    · intro h
      cases h
    · rintro ⟨fields, rfl, -⟩
      exact absurd rfl (hnot fields)

/-! ### Texts in a format -/

section Texts

variable [Yaml.Reader]

/-- The entries that a text in a format has. -/
def Holds : WorldFormat → String → List Entry → Prop
  | .lines, text, entries => Lines.readEntries 1 (Text.lines text.toList) = .ok entries
  | .values, text, entries => ∃ fields, Yaml.Reader.ofText text = .ok (.map fields) ∧
      Values.readEntries fields = .ok entries

/-- Why the reading of a text in a format breaks off. -/
inductive BreaksOff (bag : Option Int) : WorldFormat → String → Breakdown → Prop where
  /-- A number on a line has too many digits. -/
  | line {text : String} (h : Lines.Overlong (Text.lines text.toList)) :
      BreaksOff bag .lines text .badNumber
  /-- The text breaks off the reading of its value. -/
  | parser {text : String} {b : Breakdown} (h : Yaml.Reader.ofText text = .error (.broken b)) :
      BreaksOff bag .values text b
  /-- A number among the values is infinite. -/
  | value {text : String} {fields : List (Value × Value)}
      (hload : Yaml.Reader.ofText text = .ok (.map fields)) (h : Values.MeetsInfinity fields) :
      BreaksOff bag .values text .tooGreat
  /-- What is wrong cannot be told. -/
  | untold {format : WorldFormat} {text : String} {entries : List Entry}
      (hentries : Holds format text entries) (h : Untold bag entries) :
      BreaksOff bag format text .badNumber

theorem Values.readText_broken_iff :
    Values.readText bag text = .error (.broken b) ↔ BreaksOff bag .values text b := by
  unfold Values.readText
  split
  · next hload =>
    constructor
    · intro h
      cases h
    · intro h
      cases h <;> simp_all [Holds]
  · next e hload =>
    constructor
    · intro h
      cases h
      exact .parser hload
    · intro h
      cases h <;> simp_all [Holds]
  · next v hload =>
    rw [Values.read_broken_iff]
    constructor
    · rintro ⟨fields, rfl, ⟨rfl, h⟩ | ⟨entries, hentries, rfl, h⟩⟩
      · exact .value hload h
      · have hholds : Holds .values text entries := ⟨fields, hload, hentries⟩
        exact .untold hholds h
    · intro h
      cases h with
      | parser h => simp_all
      | value hmap h =>
        rw [hload] at hmap
        exact ⟨_, Except.ok.inj hmap, .inl ⟨rfl, h⟩⟩
      | untold hentries h =>
        obtain ⟨fields, hmap, hentries⟩ := hentries
        rw [hload] at hmap
        exact ⟨fields, Except.ok.inj hmap, .inr ⟨_, hentries, rfl, h⟩⟩

/-- The reading of a text breaks off for these reasons only. -/
theorem readWorldAs_broken_iff :
    readWorldAs format bag text = .error (.broken b) ↔ BreaksOff bag format text b := by
  cases format with
  | lines =>
    rw [readWorldAs, Lines.read_broken_iff]
    constructor
    · rintro ⟨rfl, h | ⟨entries, hentries, h⟩⟩
      · exact .line h
      · exact .untold hentries h
    · intro h
      cases h with
      | line h => exact ⟨rfl, .inl h⟩
      | untold hentries h => exact ⟨rfl, .inr ⟨_, hentries, h⟩⟩
  | values => exact Values.readText_broken_iff

end Texts

end GridRobot
