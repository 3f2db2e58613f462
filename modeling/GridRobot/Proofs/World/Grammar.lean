import GridRobot.Proofs.Text.Integer
import GridRobot.Proofs.World.Unreadable

/-!
# What may be written on a line

A line of a world file is a word, a colon and a rest. Which words there are and what may follow them is
given here as a grammar, with no regard to how lines are read. Then the lines that are read are shown to
be those of the grammar, and what is read is what the grammar says.

## Main definitions

* `Lines.IsPoint` is a point in parentheses with what follows it.
* `Direction.NamedBy` says which words stand for a direction, `Lines.Keyword` with which words an entry
  begins.
* `Lines.Says` is the grammar of what follows a word, and `Lines.LineSays` that of a whole line.

## Main statements

* `Lines.splitEntry_eq_some_iff` and `Lines.readPoint_eq_ok_iff`: the parts of a line.
* `Lines.readEntry_eq_ok_iff`: a line is read exactly where the grammar has it.
* `Lines.readEntry_eq_error`: any other line is an error that can be told.
-/

namespace GridRobot

/-- A word stands for a direction: in capitals it is the name of the direction or its first letter. -/
def Direction.NamedBy (d : Direction) (word : List Char) : Prop :=
  Text.upperCase word = d.name.toList ∨ Text.upperCase word = d.name.toList.take 1

theorem Direction.ofWord?_eq_some_iff {s : String} {d : Direction} :
    Direction.ofWord? s = some d ↔ d.NamedBy (Text.trim s.toList) := by
  have hname (word : List Char) (name : String) :
      (String.ofList word == name) = true ↔ word = name.toList := by
    rw [beq_iff_eq]
    exact ⟨fun h => by rw [← h, String.toList_ofList], fun h => by rw [h, String.ofList_toList]⟩
  unfold ofWord? ofCapitals? NamedBy
  generalize Text.upperCase (Text.trim s.toList) = word
  constructor
  · intro h
    have hword := List.find?_some h
    rw [Bool.or_eq_true, hname, hname, String.toList_ofList] at hword
    exact hword
  · rintro (rfl | rfl)
    · cases d <;> decide
    · cases d <;> decide

namespace Lines

open Text

variable {cs ds rest tail word line : List Char} {a b : Bool × List Char} {x y z : Int}

/-- The integer of a sign and digits. -/
def valueOf (written : Bool × List Char) : Int :=
  if written.1 then -(digitsValue written.2 : Int) else digitsValue written.2

/-- A point in parentheses at the beginning of a text, with blanks between its parts: its coordinates,
and what follows it without the blanks around that. -/
inductive IsPoint : List Char → Int → Int → List Char → Prop where
  | mk {a b : Bool × List Char} {b₁ b₂ b₃ b₄ tail : List Char} (ha : IsNumeral a) (hb : IsNumeral b)
      (h₁ : Blanks b₁) (h₂ : Blanks b₂) (h₃ : Blanks b₃) (h₄ : Blanks b₄) :
      IsPoint ('(' :: (b₁ ++ numeral a ++ b₂ ++ ',' :: (b₃ ++ numeral b ++ b₄ ++ ')' :: tail)))
        (valueOf a) (valueOf b) (trim tail)

/-- The words that entries begin with. -/
inductive Keyword where
  | dimension
  | wall
  | beeper
  | karel
  | beeperBag
  | speed
  deriving Repr, DecidableEq

/-- A word of entries in small letters. -/
def Keyword.name : Keyword → String
  | dimension => "dimension"
  | wall => "wall"
  | beeper => "beeper"
  | karel => "karel"
  | beeperBag => "beeperbag"
  | speed => "speed"

/-- What may be said after a word, and the entry that it makes. -/
inductive Says : Keyword → List Char → Option Entry → Prop where
  | dimension {rest tail : List Char} {width height : Int} (h : IsPoint rest width height tail)
      (hwidth : 0 < width) (hheight : 0 < height) :
      Says .dimension rest (some (.dimension width height))
  | wall {rest tail : List Char} {x y : Int} {side : Direction} (h : IsPoint rest x y tail)
      (hside : side.NamedBy tail) : Says .wall rest (some (.wall x y side))
  | beeper {rest : List Char} {x y : Int} (h : IsPoint rest x y []) :
      Says .beeper rest (some (.beepers x y 1))
  | beepers {rest tail : List Char} {x y count : Int} (h : IsPoint rest x y tail)
      (htail : Denotes tail count) (hcount : 0 ≤ count) :
      Says .beeper rest (some (.beepers x y count))
  | robot {rest : List Char} {x y : Int} (h : IsPoint rest x y []) :
      Says .karel rest (some (.robot x y .east))
  | robotFacing {rest tail : List Char} {x y : Int} {facing : Direction} (h : IsPoint rest x y tail)
      (hfacing : facing.NamedBy tail) : Says .karel rest (some (.robot x y facing))
  | endlessBag {rest : List Char} (h : String.ofList (lowerCase rest) ∈ Entry.infiniteWords) :
      Says .beeperBag rest (some (.bag none))
  | bag {rest : List Char} {count : Int} (h : Denotes rest count) (hcount : 0 ≤ count) :
      Says .beeperBag rest (some (.bag (some count)))
  | speed (rest : List Char) : Says .speed rest none

/-- A line without comment and without blanks around it that says something: a word in any letter case,
a colon and a rest. -/
inductive LineSays : List Char → Option Entry → Prop where
  | mk {word blanks rest : List Char} {k : Keyword} {e : Option Entry}
      (hletters : ∀ c ∈ word, isLetter c = true) (hname : lowerCase word = k.name.toList)
      (hblanks : Blanks blanks) (h : Says k (trim rest) e) :
      LineSays (word ++ (blanks ++ ':' :: rest)) e

/-! ### Words -/

theorem Keyword.name_ne_nil (k : Keyword) : k.name.toList ≠ [] := by
  cases k <;> decide

theorem lineSays_iff {e : Option Entry} : LineSays line e ↔ ∃ word rest k,
    splitEntry line = some (word, rest) ∧ String.ofList (lowerCase word) = k.name ∧ Says k rest e := by
  constructor
  · intro h
    cases h with
    | @mk word blanks after k e hletters hname hblanks h =>
      have hne : word ≠ [] := by
        rintro rfl
        exact k.name_ne_nil hname.symm
      refine ⟨word, trim after, k, ?_, by rw [hname, String.ofList_toList], h⟩
      exact splitEntry_eq_some_iff.2 ⟨blanks, after, rfl, hletters, hne, hblanks, rfl⟩
  · rintro ⟨word, rest, k, hsplit, hname, h⟩
    obtain ⟨blanks, after, rfl, hletters, -, hblanks, rfl⟩ := splitEntry_eq_some_iff.1 hsplit
    exact .mk hletters (by rw [← hname, String.toList_ofList]) hblanks h

/-! ### Points -/

theorem isPoint_iff : IsPoint cs x y tail ↔
    ∃ a b, splitPoint cs = some (a, b, tail) ∧ x = valueOf a ∧ y = valueOf b := by
  constructor
  · rintro ⟨ha, hb, h₁, h₂, h₃, h₄⟩
    exact ⟨_, _, splitPoint_eq_some_iff.2 ⟨_, _, _, _, _, ha, hb, h₁, h₂, h₃, h₄, rfl, rfl⟩, rfl, rfl⟩
  · rintro ⟨a, b, hsplit, rfl, rfl⟩
    obtain ⟨b₁, b₂, b₃, b₄, after, ha, hb, h₁, h₂, h₃, h₄, rfl, rfl⟩ :=
      splitPoint_eq_some_iff.1 hsplit
    exact .mk ha hb h₁ h₂ h₃ h₄

theorem integerOf_of_length_le (h : a.2.length ≤ maxDigits) : integerOf a = .ok (valueOf a) := by
  rw [integerOf, readDigits, if_pos h]
  rfl

/-- A point is read exactly where there is one. -/
theorem readPoint_eq_ok_iff (hshort : Short cs) :
    readPoint cs = .ok (x, y, tail) ↔ IsPoint cs x y tail := by
  rw [isPoint_iff, readPoint]
  cases hsplit : splitPoint cs with
  | none => simp
  | some point =>
    obtain ⟨a, b, tail'⟩ := point
    obtain ⟨⟨ha, hain⟩, ⟨hb, hbin⟩, -, -⟩ := splitPoint_parts hsplit
    have hx := integerOf_of_length_le (hshort.length_le hain ha.digits)
    have hy := integerOf_of_length_le (hshort.length_le hbin hb.digits)
    simp only [hx, hy, ok_bind, Except.ok.injEq, Prod.mk.injEq, Option.some.injEq]
    constructor
    · rintro ⟨rfl, rfl, rfl⟩
      exact ⟨a, b, ⟨rfl, rfl, rfl⟩, rfl, rfl⟩
    · rintro ⟨_, _, ⟨rfl, rfl, rfl⟩, rfl, rfl⟩
      exact ⟨rfl, rfl, rfl⟩

theorem IsPoint.tail_part (h : IsPoint cs x y tail) : tail <:+: cs ∧ trim tail = tail := by
  obtain ⟨a, b, hsplit, -, -⟩ := isPoint_iff.1 h
  exact (splitPoint_parts hsplit).2.2

/-! ### What follows a point -/

theorem made_eq_ok_iff {r : Except FormatError.Cause Entry} {e : Option Entry} :
    made r = .ok e ↔ ∃ entry, r = .ok entry ∧ e = some entry := by
  cases r <;> simp [made, eq_comm]

theorem direction?_eq_ok_iff {d : Direction} (htail : trim tail = tail) :
    Entry.direction? (.ofString (String.ofList tail)) = .ok d ↔ d.NamedBy tail := by
  have hword := Direction.ofWord?_eq_some_iff (s := String.ofList tail) (d := d)
  rw [String.toList_ofList, htail, ← toOption_direction?] at hword
  rw [← hword]
  cases Entry.direction? (.ofString (String.ofList tail)) <;> simp [Except.toOption]

theorem not_namedBy_nil {d : Direction} : ¬ d.NamedBy [] := by
  unfold Direction.NamedBy
  cases d <;> decide

/-- Where no direction is written, it is east. -/
theorem facing_eq_ok_iff {d : Direction} (htail : trim tail = tail) :
    Entry.direction? (.ofString (if tail.isEmpty then "east" else String.ofList tail)) = .ok d ↔
      (tail = [] ∧ d = .east) ∨ d.NamedBy tail := by
  by_cases hempty : tail = []
  · subst hempty
    have heast : Entry.direction? (.ofString "east") = .ok .east := by decide
    simp [heast, not_namedBy_nil, eq_comm]
  · have hne : tail.isEmpty = false := by simpa using hempty
    simp [hne, direction?_eq_ok_iff htail, hempty]

theorem readCount_eq_ok_iff (hshort : Short tail) (htail : trim tail = tail) :
    readCount tail = .ok z ↔ (tail = [] ∧ z = 1) ∨ Denotes tail z := by
  unfold readCount
  by_cases hempty : tail = []
  · subst hempty
    simp [not_denotes_nil, eq_comm]
  · have hne : tail.isEmpty = false := by simpa using hempty
    rw [← htail] at hshort ⊢
    rw [htail, hne, ← htail, ← readInteger_trim_eq_ok_iff hshort, htail]
    simp only [hempty, false_and, false_or, Bool.false_eq_true, if_false]
    cases readInteger tail <;> simp

/-! ### What follows a word -/

variable {e : Option Entry}

theorem dimension_eq_ok_iff (hshort : Short rest) :
    (readPoint rest >>= fun p => made (Entry.dimension? p.1 p.2.1)) = .ok e ↔
      Says .dimension rest e := by
  rw [bind_eq_ok]
  constructor
  · rintro ⟨⟨x, y, tail⟩, hpoint, h⟩
    obtain ⟨entry, hentry, rfl⟩ := made_eq_ok_iff.1 h
    unfold Entry.dimension? at hentry
    split at hentry
    · cases hentry
    · next hpos =>
      cases hentry
      rw [not_or, not_le, not_le] at hpos
      exact .dimension ((readPoint_eq_ok_iff hshort).1 hpoint) hpos.1 hpos.2
  · intro h
    cases h with
    | @dimension _ tail width height hpoint hwidth hheight =>
      refine ⟨(width, height, tail), (readPoint_eq_ok_iff hshort).2 hpoint,
        made_eq_ok_iff.2 ⟨_, ?_, rfl⟩⟩
      exact if_neg (not_or.2 ⟨not_le.2 hwidth, not_le.2 hheight⟩)

theorem wall_eq_ok_iff (hshort : Short rest) :
    (readPoint rest >>= fun p => made (Entry.wall? p.1 p.2.1 (.ofString (String.ofList p.2.2)))) =
      .ok e ↔ Says .wall rest e := by
  rw [bind_eq_ok]
  constructor
  · rintro ⟨⟨x, y, tail⟩, hpoint, h⟩
    obtain ⟨entry, hentry, rfl⟩ := made_eq_ok_iff.1 h
    obtain ⟨side, hside, rfl⟩ := map_eq_ok.1 hentry
    have hpoint := (readPoint_eq_ok_iff hshort).1 hpoint
    exact .wall hpoint ((direction?_eq_ok_iff hpoint.tail_part.2).1 hside)
  · intro h
    cases h with
    | @wall _ tail x y side hpoint hside =>
      refine ⟨(x, y, tail), (readPoint_eq_ok_iff hshort).2 hpoint, made_eq_ok_iff.2 ⟨_, ?_, rfl⟩⟩
      exact map_eq_ok.2 ⟨side, (direction?_eq_ok_iff hpoint.tail_part.2).2 hside, rfl⟩

theorem beeper_eq_ok_iff (hshort : Short rest) :
    (readPoint rest >>= fun p => readCount p.2.2 >>= fun count =>
      made (Entry.beepers? p.1 p.2.1 count)) = .ok e ↔ Says .beeper rest e := by
  simp only [bind_eq_ok]
  constructor
  · rintro ⟨⟨x, y, tail⟩, hpoint, count, hcount, h⟩
    obtain ⟨entry, hentry, rfl⟩ := made_eq_ok_iff.1 h
    have hpoint := (readPoint_eq_ok_iff hshort).1 hpoint
    obtain ⟨hin, htail⟩ := hpoint.tail_part
    unfold Entry.beepers? at hentry
    split at hentry
    · cases hentry
    · next hpos =>
      cases hentry
      rcases (readCount_eq_ok_iff (hshort.part hin) htail).1 hcount with ⟨rfl, rfl⟩ | hcount
      · exact .beeper hpoint
      · exact .beepers hpoint hcount (not_lt.1 hpos)
  · intro h
    have hmade {x y count : Int} {tail : List Char} (hpoint : IsPoint rest x y tail)
        (hcount : (tail = [] ∧ count = 1) ∨ Denotes tail count) (hpos : 0 ≤ count) :
        ∃ p, readPoint rest = .ok p ∧ ∃ n, readCount p.2.2 = .ok n ∧
          made (Entry.beepers? p.1 p.2.1 n) = .ok (some (.beepers x y count)) := by
      obtain ⟨hin, htail⟩ := hpoint.tail_part
      refine ⟨(x, y, tail), (readPoint_eq_ok_iff hshort).2 hpoint, count,
        (readCount_eq_ok_iff (hshort.part hin) htail).2 hcount, made_eq_ok_iff.2 ⟨_, ?_, rfl⟩⟩
      rw [Entry.beepers?, if_neg (not_lt.2 hpos)]
    cases h with
    | beeper hpoint => exact hmade hpoint (.inl ⟨rfl, rfl⟩) (by decide)
    | beepers hpoint hcount hpos => exact hmade hpoint (.inr hcount) hpos

theorem karel_eq_ok_iff (hshort : Short rest) :
    (readPoint rest >>= fun p => made (Entry.robot? p.1 p.2.1
      (.ofString (if p.2.2.isEmpty then "east" else String.ofList p.2.2)))) = .ok e ↔
      Says .karel rest e := by
  rw [bind_eq_ok]
  constructor
  · rintro ⟨⟨x, y, tail⟩, hpoint, h⟩
    obtain ⟨entry, hentry, rfl⟩ := made_eq_ok_iff.1 h
    obtain ⟨facing, hfacing, rfl⟩ := map_eq_ok.1 hentry
    have hpoint := (readPoint_eq_ok_iff hshort).1 hpoint
    rcases (facing_eq_ok_iff hpoint.tail_part.2).1 hfacing with ⟨rfl, rfl⟩ | hfacing
    · exact .robot hpoint
    · exact .robotFacing hpoint hfacing
  · intro h
    have hmade {x y : Int} {facing : Direction} {tail : List Char} (hpoint : IsPoint rest x y tail)
        (hfacing : (tail = [] ∧ facing = .east) ∨ facing.NamedBy tail) :
        ∃ p, readPoint rest = .ok p ∧ made (Entry.robot? p.1 p.2.1
          (.ofString (if p.2.2.isEmpty then "east" else String.ofList p.2.2))) =
            .ok (some (.robot x y facing)) :=
      ⟨(x, y, tail), (readPoint_eq_ok_iff hshort).2 hpoint, made_eq_ok_iff.2 ⟨_, map_eq_ok.2
        ⟨facing, (facing_eq_ok_iff hpoint.tail_part.2).2 hfacing, rfl⟩, rfl⟩⟩
    cases h with
    | robot hpoint => exact hmade hpoint (.inl ⟨rfl, rfl⟩)
    | robotFacing hpoint hfacing => exact hmade hpoint (.inr hfacing)

theorem beeperBag_eq_ok_iff (hshort : Short rest) (hrest : trim rest = rest) {shown : String} :
    made (Entry.bag? (.ofString (String.ofList rest)) shown) = .ok e ↔ Says .beeperBag rest e := by
  have hread {n : Int} : readInteger rest = .ok n ↔ Denotes rest n := by
    rw [← hrest] at hshort ⊢
    exact readInteger_trim_eq_ok_iff hshort
  rw [made_eq_ok_iff]
  simp only [Entry.bag?, LooseText.toString?_ofString, Option.getD_some, String.toList_ofList, hrest]
  constructor
  · rintro ⟨entry, h, rfl⟩
    split at h
    · next hword =>
      cases h
      exact .endlessBag (List.contains_iff_mem.1 hword)
    · split at h
      · cases h
      · next n hn =>
        split at h
        · cases h
        · next hpos =>
          cases h
          exact .bag (hread.1 hn) (not_lt.1 hpos)
  · intro h
    cases h with
    | endlessBag hword => exact ⟨_, if_pos (List.contains_iff_mem.2 hword), rfl⟩
    | @bag _ n hn hpos =>
      refine ⟨_, ?_, rfl⟩
      rw [not_infinite_of_head? hn.head?, if_neg Bool.false_ne_true, hread.2 hn]
      exact if_neg (not_lt.2 hpos)

theorem Keyword.name_injective {k k' : Keyword} (h : k.name = k'.name) : k = k' := by
  cases k <;> cases k' <;> first | rfl | exact absurd h (by decide)

/-- What follows a word is read exactly where the grammar has it, and the word too. -/
theorem entryOf_eq_ok_iff (hshort : Short rest) (hrest : trim rest = rest) : entryOf word rest = .ok e ↔
    ∃ k : Keyword, String.ofList (lowerCase word) = k.name ∧ Says k rest e := by
  have hknown {k : Keyword} (h : String.ofList (lowerCase word) = k.name) :
      (∃ k : Keyword, String.ofList (lowerCase word) = k.name ∧ Says k rest e) ↔ Says k rest e :=
    ⟨fun ⟨k', hk', hsays⟩ => Keyword.name_injective (hk'.symm.trans h) ▸ hsays, fun hsays => ⟨k, h, hsays⟩⟩
  unfold entryOf
  split
  · next h => rw [hknown (k := .dimension) h, ← dimension_eq_ok_iff hshort]
  · next h => rw [hknown (k := .wall) h, ← wall_eq_ok_iff hshort]
  · next h => rw [hknown (k := .beeper) h, ← beeper_eq_ok_iff hshort]
  · next h => rw [hknown (k := .karel) h, ← karel_eq_ok_iff hshort]
  · next h => rw [hknown (k := .beeperBag) h, ← beeperBag_eq_ok_iff hshort hrest]
  · next h =>
    rw [hknown (k := .speed) h]
    constructor
    · intro hspeed
      cases hspeed
      exact .speed rest
    · intro hspeed
      cases hspeed
      rfl
  · next hdimension hwall hbeeper hkarel hbag hspeed =>
    refine iff_of_false nofun ?_
    rintro ⟨k, hk, -⟩
    cases k with
    | dimension => exact hdimension hk
    | wall => exact hwall hk
    | beeper => exact hbeeper hk
    | karel => exact hkarel hk
    | beeperBag => exact hbag hk
    | speed => exact hspeed hk

/-! ### Lines -/

/-- A line is read exactly where the grammar has it, or where it is empty. -/
theorem readEntry_eq_ok_iff (hshort : Short line) :
    readEntry line = .ok e ↔ (line = [] ∧ e = none) ∨ LineSays line e := by
  rw [lineSays_iff, readEntry]
  by_cases hempty : line = []
  · subst hempty
    have hnone : splitEntry [] = none := rfl
    simp [hnone, eq_comm]
  · have hne : line.isEmpty = false := by simpa using hempty
    simp only [hne, hempty, false_and, false_or, Bool.false_eq_true, if_false]
    cases hsplit : splitEntry line with
    | none => simp
    | some entry =>
      obtain ⟨word, rest⟩ := entry
      obtain ⟨hin, hrest⟩ := splitEntry_rest hsplit
      simp only [entryOf_eq_ok_iff (hshort.part hin) hrest, Option.some.injEq, Prod.mk.injEq]
      constructor
      · rintro ⟨k, hk, h⟩
        exact ⟨word, rest, k, ⟨rfl, rfl⟩, hk, h⟩
      · rintro ⟨_, _, k, ⟨rfl, rfl⟩, hk, h⟩
        exact ⟨k, hk, h⟩

theorem not_longLine (hshort : Short line) : ¬ LongLine line := by
  rintro ⟨word, rest, hsplit, -, a, b, tail, hpoint, hlong⟩
  have hrest := hshort.part (splitEntry_rest hsplit).1
  obtain ⟨⟨ha, hain⟩, ⟨hb, hbin⟩, -, -⟩ := splitPoint_parts hpoint
  rcases hlong with hlong | hlong
  · exact absurd (hrest.length_le hain ha.digits) (not_le.2 hlong)
  · exact absurd (hrest.length_le hbin hb.digits) (not_le.2 hlong)

/-- A line that the grammar does not have is an error that can be told. -/
theorem readEntry_eq_error (hshort : Short line) (hne : line ≠ []) (h : ∀ e, ¬ LineSays line e) :
    ∃ c, readEntry line = .error (.cause c) := by
  cases hread : readEntry line with
  | ok e =>
    rcases (readEntry_eq_ok_iff hshort).1 hread with ⟨hempty, -⟩ | hsays
    · exact absurd hempty hne
    · exact absurd hsays (h e)
  | error p =>
    cases p with
    | cause c => exact ⟨c, rfl⟩
    | numberTooLong => exact absurd (readEntry_tooLong_iff.1 hread) (not_longLine hshort)

end Lines

end GridRobot
