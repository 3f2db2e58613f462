import GridRobot.Proofs.World.Described
import GridRobot.Proofs.World.Formats
import GridRobot.Proofs.World.Grammar
import Mathlib.Data.List.ReduceOption

/-!
# What a file of lines means

A file of lines means the fold of its lines. Every line means nothing, or an entry, or is in error. The
first line in error is told with its number. If there is none, the entries make a description together,
or else it is told without a number why not.

That cannot be told where the cell in question is so far away that one of its coordinates has too many
digits: a line counts cells from one, and the cell that it means is one less.

## Main definitions

* `Lines.Meant` says what a line means.

## Main statements

* `Lines.readEntries_eq_ok`: lines that all mean something are the entries that they say.
* `Lines.readEntries_eq_error`: the first line in error is the one that is told.
* `Lines.read_folds`: what comes of a text.
* `Lines.read_far`: a text of which it cannot be told what is wrong.
-/

namespace GridRobot.Lines

open Description (inside)
open Entry (heaps)

/-! ### Lines -/

variable {line : List Char} {lines before after : List (List Char)} {said : List (Option Entry)}
  {number : Nat} {bag : Option Int}

/-- What a line means: nothing if it is empty but for a comment and blanks, or else what it says. -/
def Meant (line : List Char) (e : Option Entry) : Prop :=
  (content line = [] ∧ e = none) ∨ LineSays (content line) e

theorem meant_iff (hshort : Text.Short line) {e : Option Entry} :
    readEntry (content line) = .ok e ↔ Meant line e :=
  readEntry_eq_ok_iff (hshort.part (content_infix_line line))

/-- A line means one thing at most. -/
theorem Meant.unique (hshort : Text.Short line) {e e' : Option Entry} (h : Meant line e)
    (h' : Meant line e') : e = e' := by
  rw [← meant_iff hshort] at h h'
  exact Except.ok.inj (h.symm.trans h')

theorem forall₂_meant (hshort : ∀ line ∈ lines, Text.Short line)
    (h : lines.map (fun line => readEntry (content line)) = said.map .ok) :
    List.Forall₂ Meant lines said := by
  induction lines generalizing said with
  | nil =>
    obtain rfl : said = [] := List.map_eq_nil_iff.1 h.symm
    exact .nil
  | cons line rest ih =>
    cases said with
    | nil => cases h
    | cons e others =>
      obtain ⟨hline, hrest⟩ := List.cons.inj h
      exact .cons ((meant_iff (hshort line (by simp))).1 hline)
        (ih (fun l hl => hshort l (by simp [hl])) hrest)

theorem Says.sane {k : Keyword} {rest : List Char} {e : Entry} (h : Says k rest (some e)) :
    e.Sane := by
  cases h with
  | dimension _ hwidth hheight => exact ⟨hwidth, hheight⟩
  | wall => trivial
  | beeper => exact Int.one_nonneg
  | beepers _ _ hcount => exact hcount
  | robot => trivial
  | robotFacing => trivial
  | endlessBag => trivial
  | bag _ hcount => exact hcount

theorem sane_of_meant (h : List.Forall₂ Meant lines said) : ∀ e ∈ said.reduceOption, e.Sane := by
  intro e he
  have hsaid : some e ∈ said := List.reduceOption_mem_iff.1 he
  induction h with
  | nil => cases hsaid
  | @cons line o lines said hline _ ih =>
    rcases List.mem_cons.1 hsaid with rfl | hsaid
    · rcases hline with ⟨-, hnone⟩ | hline
      · cases hnone
      · obtain ⟨word, rest, k, -, -, h⟩ := lineSays_iff.1 hline
        exact h.sane
    · exact ih (List.reduceOption_mem_iff.2 hsaid) hsaid

/-- Lines that all mean something are read as the entries that they say. -/
theorem readEntries_eq_ok (hshort : ∀ line ∈ lines, Text.Short line)
    (h : List.Forall₂ Meant lines said) : readEntries number lines = .ok said.reduceOption := by
  induction h generalizing number with
  | nil => rfl
  | @cons line e lines said hline _ ih =>
    have hread := (meant_iff (hshort line (by simp))).2 hline
    rw [readEntries, hread]
    simp only [ih fun l hl => hshort l (by simp [hl]), ok_bind]
    cases e <;> simp [List.reduceOption]

/-- The first line in error is the one that is told. -/
theorem readEntries_eq_error {c : FormatError.Cause}
    (hbefore : ∀ l ∈ before, ∃ e, readEntry (content l) = .ok e)
    (hline : readEntry (content line) = .error (.cause c)) :
    readEntries number (before ++ line :: after) =
      .error (.format ⟨c, some (number + before.length)⟩) := by
  induction before generalizing number with
  | nil => simp [readEntries, hline]
  | cons first rest ih =>
    obtain ⟨e, he⟩ := hbefore first (by simp)
    have hrest : readEntries (number + 1) (rest ++ line :: after) =
        .error (.format ⟨c, some (number + 1 + rest.length)⟩) :=
      ih fun l hl => hbefore l (by simp [hl])
    rw [List.cons_append, readEntries, he]
    simp only [hrest, List.length_cons]
    rw [Nat.add_right_comm number 1, Nat.add_assoc]
    rfl

/-! ### Texts -/

theorem short_of_mem_lines {text : String} (hshort : Text.Short text.toList) :
    ∀ line ∈ Text.lines text.toList, Text.Short line := fun _ h =>
  hshort.part (Text.infix_of_mem_lines h)

theorem read_of_meant {text : String} (hshort : Text.Short text.toList)
    (h : List.Forall₂ Meant (Text.lines text.toList) said) :
    read bag text = describe bag said.reduceOption := by
  rw [read, readEntries_eq_ok (short_of_mem_lines hshort) h]
  rfl

/-- What comes of a text in which no number has too many digits. If a line means nothing, the first such
line is told, whatever follows it. If every line means something, then all of them together make a
description unless the entries do not make a world, and in that case the cause is told without a line.
It is not told where it would have to tell a number that is too long. -/
theorem read_folds (bag : Option Int) {text : String} (hshort : Text.Short text.toList) :
    (∀ before line after, Text.lines text.toList = before ++ line :: after →
      (∀ l ∈ before, ∃ e, Meant l e) → (∀ e, ¬ Meant line e) →
      ∃ cause, read bag text = .error (.format ⟨cause, some (before.length + 1)⟩)) ∧
    ∀ said, List.Forall₂ Meant (Text.lines text.toList) said →
      (Unfit bag said.reduceOption → ∃ cause, Flaw bag said.reduceOption cause ∧
        read bag text =
          .error (if cause.isWritable then .format ⟨cause, none⟩ else .broken .badNumber)) ∧
      (¬ Unfit bag said.reduceOption →
        ∃ d, read bag text = .ok d ∧ Folds bag said.reduceOption d) := by
  have hline := short_of_mem_lines hshort
  refine ⟨fun before line after hlines hbefore hnot => ?_, fun said hsaid => ?_⟩
  · have hread : ∀ l ∈ before, ∃ e, readEntry (content l) = .ok e := fun l hl =>
      (hbefore l hl).imp fun e he => (meant_iff (hline l (by simp [hlines, hl]))).2 he
    have hshort' := (hline line (by simp [hlines])).part (content_infix_line line)
    obtain ⟨c, hc⟩ := readEntry_eq_error hshort' (fun hempty => hnot none (.inl ⟨hempty, rfl⟩))
      fun e he => hnot e (.inr he)
    refine ⟨c, ?_⟩
    rw [read, hlines, readEntries_eq_error hread hc, Nat.add_comm]
    rfl
  · have hsane := sane_of_meant hsaid
    rw [read_of_meant hshort hsaid]
    constructor
    · intro hunfit
      obtain ⟨cause, hcause⟩ := hunfit.exists_flaw
      exact ⟨cause, hcause, describe_of_flaw hsane hcause⟩
    · exact describe_of_fit hsane

/-- A text with a comment, an empty line, words in any letter case and beepers on one cell twice. -/
def courtyard : String :=
  "// a yard\nDimension: (3, 2) or so\n\nkarel: (2, 1)\nBeeper: (1, 2) 1_0\nBEEPER : ( 1 ,2 )\nSpeed: fast"

/-- What its lines say. -/
def courtyardSaid : List (Option Entry) :=
  [none, some (.dimension 3 2), none, some (.robot 2 1 .east), some (.beepers 1 2 10),
    some (.beepers 1 2 1), none]

/-- A text with two lines in error. -/
def spoilt : String :=
  "Dimension: (3, 2)\n\nBeeper: (1, 2) -1\nDimension: 7"

theorem courtyard_fit : ¬ Unfit none courtyardSaid.reduceOption := by
  intro h
  cases h with
  | noSize hsize => cases hsize
  | robot hsize hout =>
    cases hsize
    exact absurd hout (by decide)
  | beepers hsize hheap hout =>
    cases hsize
    have hcell : ∀ heap ∈ heaps courtyardSaid.reduceOption, inside 3 2 heap.1 = true := by decide
    rw [hcell _ hheap] at hout
    cases hout
  | bag _ hbag _ => cases hbag

/-- The first text makes a world, if the bag that holds for want of any is not negative. Of the other one
the third line is told. -/
theorem read_folds_courtyard : Text.Short courtyard.toList ∧ Text.Short spoilt.toList ∧
    List.Forall₂ Meant (Text.lines courtyard.toList) courtyardSaid ∧
    (∃ d, read none courtyard = .ok d ∧ Folds none courtyardSaid.reduceOption d) ∧
    (∃ cause, Flaw (some (-1)) courtyardSaid.reduceOption cause ∧ read (some (-1)) courtyard =
      .error (if cause.isWritable then .format ⟨cause, none⟩ else .broken .badNumber)) ∧
    ∃ cause, read none spoilt = .error (.format ⟨cause, some 3⟩) := by
  have hshort : Text.Short courtyard.toList := Text.short_of_length_le (by decide)
  have hshort' : Text.Short spoilt.toList := Text.short_of_length_le (by decide)
  have hsaid : List.Forall₂ Meant (Text.lines courtyard.toList) courtyardSaid :=
    forall₂_meant (short_of_mem_lines hshort) rfl
  have hunfit : Unfit (some (-1)) courtyardSaid.reduceOption := .bag rfl rfl (by decide)
  have hlines : Text.lines spoilt.toList = ["Dimension: (3, 2)".toList, []] ++
      "Beeper: (1, 2) -1".toList :: ["Dimension: 7".toList] := rfl
  have hline := short_of_mem_lines hshort'
  rw [hlines] at hline
  have hbefore : ∀ l ∈ ["Dimension: (3, 2)".toList, []], ∃ e, Meant l e := by
    intro l hl
    have hread : ∀ l ∈ ["Dimension: (3, 2)".toList, []], ∃ e, readEntry (content l) = .ok e := by
      simp only [List.mem_cons, List.not_mem_nil, or_false, forall_eq_or_imp, forall_eq]
      exact ⟨⟨_, rfl⟩, ⟨_, rfl⟩⟩
    exact (hread l hl).imp fun e he => (meant_iff (hline l (List.mem_append_left _ hl))).1 he
  have hnot : ∀ e, ¬ Meant "Beeper: (1, 2) -1".toList e := by
    intro e he
    have hread := (meant_iff (hline _ (by simp))).2 he
    cases hread
  obtain ⟨-, hall⟩ := read_folds none hshort
  obtain ⟨-, hall'⟩ := read_folds (some (-1)) hshort
  exact ⟨hshort, hshort', hsaid, (hall _ hsaid).2 courtyard_fit, (hall' _ hsaid).1 hunfit,
    (read_folds none hshort').1 _ _ _ hlines hbefore hnot⟩

/-! ### At the edge of what can be told -/

theorem readEntry_of_meant? {i : Item} {e : Entry} (h : i.Proper) (hmeant : i.meant? = some e) :
    readEntry (content i.line.toList) = .ok (some e) := by
  obtain ⟨r, hread, hr⟩ := readEntry_line h
  rw [hread]
  cases r with
  | ok entry =>
    have hentry : some entry = some e := hr.trans hmeant
    rw [Option.some.inj hentry]
    rfl
  | error c =>
    have hnone : none = some e := hr.trans hmeant
    cases hnone

/-- A written number has no more digits than numbers may have. -/
theorem short_toString {x : Int} (h : Text.isWritable x = true) : Text.Short (toString x).toList := by
  have hdigits : Text.Short (Nat.toDigits 10 x.natAbs) :=
    Text.short_of_length_le ((Text.length_toDigits_le_iff (by decide)).2 (Text.isWritable_iff.1 h))
  rw [Text.toList_toString]
  split
  · exact Text.Short.append_cons (a := []) (Text.short_of_length_le (Nat.zero_le _)) hdigits (by decide)
      (by decide)
  · exact hdigits

/-- A beeper somewhere in the first column, in a small world. -/
def farItems (y : Int) : List Item :=
  [.dimension 3 3, .beepers 1 y none]

/-- The text that says so. -/
def farText (y : Int) : String :=
  "\n".intercalate ((farItems y).map Item.line)

/-- What its lines say. -/
def farSaid (y : Int) : List (Option Entry) :=
  [some (.dimension 3 3), some (.beepers 1 y 1)]

theorem farText_short {y : Int} (h : Text.isWritable y = true) : Text.Short (farText y).toList := by
  have hbegin : Text.Short "Dimension: (3, 3)\nBeeper: (1,".toList :=
    Text.short_of_length_le (by decide)
  have hend : Text.Short ((toString y).toList ++ ')' :: []) :=
    (short_toString h).append_cons (Text.short_of_length_le (Nat.zero_le _)) (by decide) (by decide)
  have hchars : (farText y).toList = "Dimension: (3, 3)\nBeeper: (1,".toList ++
      ' ' :: ((toString y).toList ++ ')' :: []) := by
    have hone : toString (1 : Int) = "1" := rfl
    have hthree : toString (3 : Int) = "3" := rfl
    have htext : farText y = "Dimension: " ++ FormatError.Cause.point 3 3 ++ "\n" ++
        ("Beeper: " ++ FormatError.Cause.point 1 y ++ "") := rfl
    rw [htext, FormatError.Cause.point, FormatError.Cause.point, hone, hthree]
    simp
  rw [hchars]
  exact hbegin.append_cons hend (by decide) (by decide)

theorem forall₂_meant_far {y : Int} (h : Text.isWritable y = true) :
    List.Forall₂ Meant (Text.lines (farText y).toList) (farSaid y) := by
  have hone : Text.isWritable 1 = true := by decide +kernel
  have hthree : Text.isWritable 3 = true := by decide +kernel
  have hproper : ∀ i ∈ farItems y, i.Proper := by
    simp [farItems, Item.Proper, h, hone, hthree]
  have hsize := readEntry_of_meant? (hproper (.dimension 3 3) (by simp [farItems])) rfl
  have hheap := readEntry_of_meant? (hproper (.beepers 1 y none) (by simp [farItems])) rfl
  refine forall₂_meant (short_of_mem_lines (farText_short h)) ?_
  rw [farText, lines_ofItems hproper]
  simp only [farItems, farSaid, List.map_cons, List.map_nil, hsize, hheap, Option.getD_none]

theorem far_unfit {y : Int} (h : y < 1) : Unfit none (farSaid y).reduceOption ∧
    Flaw none (farSaid y).reduceOption (.beeperOutside 0 (y - 1)) := by
  have hout : inside 3 3 ⟨0, y - 1⟩ = false := by
    simp only [inside, Bool.and_eq_false_iff, decide_eq_false_iff_not]
    omega
  have hfirst : (heaps (farSaid y).reduceOption).find? (fun heap => !inside 3 3 heap.1) =
      some (⟨0, y - 1⟩, 1) := by
    show [((⟨0, y - 1⟩ : Cell), (1 : Int))].find? _ = _
    rw [List.find?_cons, hout]
    rfl
  exact ⟨.beepers rfl (List.mem_singleton_self _) hout, .beepers rfl rfl hfirst⟩

/-- The only thing wrong is a beeper off the grid, on the least coordinate that can be written. This is
not told. -/
theorem read_far : Text.Short (farText Roster.lowest).toList ∧
    List.Forall₂ Meant (Text.lines (farText Roster.lowest).toList) (farSaid Roster.lowest) ∧
    Unfit none (farSaid Roster.lowest).reduceOption ∧
    read none (farText Roster.lowest) = .error (.broken .badNumber) ∧
    ¬ ∃ cause, read none (farText Roster.lowest) = .error (.format ⟨cause, none⟩) := by
  obtain ⟨hwritable, hfar, hlow⟩ := Roster.lowest_writable
  have hshort := farText_short hwritable
  have hsaid := forall₂_meant_far hwritable
  obtain ⟨hunfit, hflaw⟩ := far_unfit hlow
  have hread : read none (farText Roster.lowest) = .error (.broken .badNumber) := by
    rw [read_of_meant hshort hsaid, describe_of_flaw (sane_of_meant hsaid) hflaw]
    simp [FormatError.Cause.isWritable, FormatError.Cause.numbers, hfar]
  refine ⟨hshort, hsaid, hunfit, hread, ?_⟩
  rintro ⟨cause, h⟩
  rw [hread] at h
  cases h

end GridRobot.Lines
