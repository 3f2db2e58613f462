import GridRobot.Proofs.Reading
import GridRobot.Proofs.World.Parts

/-!
# Lines as they are written

What a line of a world file is read as, when it is written in the common form: a word, a colon, and
what the entry says, with one blank between its parts.

## Main definitions

* `Item` is one thing that a world file is to say, and `Item.line` the line that says so.
* `Item.meant?` is the entry that an item stands for, if nothing is wrong with it.
* `Lines.pointOf` are the characters of a point in parentheses.

## Main statements

* `Lines.splitPoint_numeral`: a point is split into its coordinates.
* `Lines.readEntry_line`: the line of an item is read as the entry that is meant.
-/

namespace GridRobot

/-- How many beepers a bag is to hold: a number, or a word for beepers without end. -/
inductive Amount where
  | number (n : Int)
  | endless (word : String)
  deriving Repr, DecidableEq

/-- One thing that a world file is to say; cells are counted from one. -/
inductive Item where
  | dimension (width height : Int)
  | robot (x y : Int) (facing : Option String)
  | wall (x y : Int) (side : String)
  | beepers (x y : Int) (count : Option Int)
  | bag (amount : Amount)
  deriving Repr, DecidableEq

namespace Item

/-- A part of a line that may be missing, after a blank. -/
def after : Option String → String
  | none => ""
  | some text => " " ++ text

/-- The line of a world file that says something. -/
def line : Item → String
  | dimension width height => "Dimension: " ++ FormatError.Cause.point width height
  | robot x y facing => "Karel: " ++ FormatError.Cause.point x y ++ after facing
  | wall x y side => "Wall: " ++ FormatError.Cause.point x y ++ after (some side)
  | beepers x y count => "Beeper: " ++ FormatError.Cause.point x y ++ after (count.map toString)
  | bag (.number n) => "BeeperBag: " ++ toString n
  | bag (.endless word) => "BeeperBag: " ++ word

/-- The entry that is meant, if nothing is wrong with it. -/
def meant? : Item → Option Entry
  | dimension width height => (Entry.dimension? width height).toOption
  | robot x y facing => (Direction.ofWord? (facing.getD "east")).map (.robot x y)
  | wall x y side => (Direction.ofWord? side).map (.wall x y)
  | beepers x y count => (Entry.beepers? x y (count.getD 1)).toOption
  | bag (.number n) => if n < 0 then none else some (.bag (some n))
  | bag (.endless _) => some (.bag none)

/-- A text that can stand on a line by itself. -/
structure OnLine (text : String) : Prop where
  notBlank : Text.trim text.toList ≠ []
  noBreak : ∀ c ∈ text.toList, Text.isLineBreak c = false
  noComment : ¬ ['/', '/'] <:+: text.toList

/-- An item can be written: its numbers are short enough, its texts can stand on a line, and its
word for a bag without end is one. -/
def Proper : Item → Prop
  | dimension width height => Text.isWritable width = true ∧ Text.isWritable height = true
  | robot x y facing =>
    (Text.isWritable x = true ∧ Text.isWritable y = true) ∧ ∀ t ∈ facing, OnLine t
  | wall x y side => (Text.isWritable x = true ∧ Text.isWritable y = true) ∧ OnLine side
  | beepers x y count =>
    (Text.isWritable x = true ∧ Text.isWritable y = true) ∧ ∀ n ∈ count, Text.isWritable n = true
  | bag (.number n) => Text.isWritable n = true
  | bag (.endless word) => word ∈ Entry.infiniteWords

end Item

namespace Lines

open Text

variable {cs ds rest tail word : List Char} {a b : Bool × List Char} {x y : Int}

/-! ### Points -/

theorem IsNumeral.of_int (x : Int) : IsNumeral (decide (x < 0), Nat.toDigits 10 x.natAbs) where
  digits _ hc := isDigit_of_isDigit (isDigit_toDigits hc)
  ne_nil := Nat.toDigits_ne_nil

theorem toList_toString_eq_numeral (x : Int) :
    (toString x).toList = numeral (decide (x < 0), Nat.toDigits 10 x.natAbs) := by
  rw [toList_toString, numeral]
  by_cases hx : x < 0
  · rw [if_pos hx, if_pos (decide_eq_true hx)]
  · rw [if_neg hx, if_neg (by simp [hx])]

/-- The characters of a point in parentheses. -/
def pointOf (a b : Bool × List Char) : List Char :=
  '(' :: (numeral a ++ ',' :: ' ' :: (numeral b ++ [')']))

/-- A point is split into its coordinates. -/
theorem splitPoint_numeral (ha : IsNumeral a) (hb : IsNumeral b) :
    splitPoint (pointOf a b ++ tail) = some (a, b, trim tail) := by
  have hnil : Blanks [] := nofun
  have hblank : Blanks [' '] := fun c hc => by
    obtain rfl := List.mem_singleton.1 hc
    decide
  exact splitPoint_eq_some_iff.2
    ⟨[], [], [' '], [], tail, ha, hb, hnil, hnil, hblank, hnil, by simp [pointOf], rfl⟩

theorem integerOf_int (h : isWritable x = true) :
    integerOf (decide (x < 0), Nat.toDigits 10 x.natAbs) = .ok x := by
  rw [integerOf, readDigits_toDigits (isWritable_iff.1 h)]
  by_cases hx : x < 0
  · simp [hx, Int.ofNat_natAbs_of_nonpos hx.le]
  · simp [hx, Int.natAbs_of_nonneg (not_lt.1 hx)]

theorem toList_point (x y : Int) : (FormatError.Cause.point x y).toList =
    pointOf (decide (x < 0), Nat.toDigits 10 x.natAbs)
      (decide (y < 0), Nat.toDigits 10 y.natAbs) := by
  rw [pointOf, ← toList_toString_eq_numeral, ← toList_toString_eq_numeral]
  simp [FormatError.Cause.point]

theorem trim_pointOf : trim (pointOf a b ++ tail) = pointOf a b ++ trimEnd tail := by
  have hend : numeral a ++ ',' :: ' ' :: (numeral b ++ ')' :: tail) =
      (numeral a ++ ',' :: ' ' :: numeral b) ++ ')' :: tail := by simp
  rw [pointOf, List.cons_append, trim_cons (by decide)]
  simp only [List.append_assoc, List.cons_append, List.nil_append]
  rw [hend, trimEnd_append_cons (by decide)]
  simp

theorem readPoint_point (hx : isWritable x = true) (hy : isWritable y = true) :
    readPoint (trim ((FormatError.Cause.point x y).toList ++ tail)) = .ok (x, y, trim tail) := by
  rw [toList_point, trim_pointOf, readPoint, splitPoint_numeral (.of_int x) (.of_int y),
    trim_trimEnd]
  simp only [integerOf_int hx, integerOf_int hy]
  rfl

/-! ### Comments -/

/-- What holds no slash begins no comment. -/
theorem not_comment_append (h : '/' ∉ cs) (hrest : ¬ ['/', '/'] <:+: rest) :
    ¬ ['/', '/'] <:+: cs ++ rest := by
  induction cs with
  | nil => exact hrest
  | cons c more ih =>
    rw [List.mem_cons, not_or] at h
    rw [List.cons_append, List.infix_cons_iff, not_or]
    refine ⟨?_, ih h.2⟩
    rintro ⟨t, ht⟩
    exact h.1 (List.cons.inj ht).1

theorem not_comment (h : '/' ∉ cs) : ¬ ['/', '/'] <:+: cs := by
  have hnil : ¬ ['/', '/'] <:+: ([] : List Char) := by decide
  simpa using not_comment_append h hnil

theorem slash_not_mem_numeral (h : IsNumeral a) : '/' ∉ numeral a := by
  have hdigits : '/' ∉ a.2 := fun hmem => absurd (h.digits '/' hmem) (by decide)
  unfold numeral
  split
  · simp [hdigits]
  · exact hdigits

theorem slash_not_mem_pointOf (ha : IsNumeral a) (hb : IsNumeral b) : '/' ∉ pointOf a b := by
  simp [pointOf, slash_not_mem_numeral ha, slash_not_mem_numeral hb]

/-! ### Entries -/

/-- A word, a colon and what is said after it are read as an entry. -/
theorem readEntry_word (hword : word.all isLetter = true) (hne : word ≠ [])
    (hcomment : ¬ ['/', '/'] <:+: word ++ ':' :: ' ' :: rest) :
    readEntry (content (word ++ ':' :: ' ' :: rest)) = entryOf word (trim rest) := by
  obtain ⟨w, ws, rfl⟩ := List.exists_cons_of_ne_nil hne
  have hletter := List.all_eq_true.1 hword
  have hcontent : content ((w :: ws) ++ ':' :: ' ' :: rest) =
      (w :: ws) ++ ':' :: trimEnd (' ' :: rest) := by
    rw [content, beforeComment_eq_self hcomment, List.cons_append,
      trim_cons (isBlank_of_isLetter (hletter w (by simp))), trimEnd_append_cons (by decide),
      List.cons_append]
  have hrest : trim rest = trim (trimEnd (' ' :: rest)) := by
    rw [trim_trimEnd, trim_cons_blank (by decide)]
  have hsplit : splitEntry ((w :: ws) ++ ':' :: trimEnd (' ' :: rest)) = some (w :: ws, trim rest) :=
    splitEntry_eq_some_iff.2 ⟨[], trimEnd (' ' :: rest), rfl, hletter, hne, nofun, hrest⟩
  rw [hcontent, readEntry, hsplit]
  rfl

theorem toOption_direction? (s : String) :
    (Entry.direction? (.ofString s)).toOption = Direction.ofWord? s := by
  rw [Entry.direction?, LooseText.toString?_ofString, Option.bind_some]
  cases Direction.ofWord? s <;> rfl

theorem ofWord?_trim (s : String) :
    Direction.ofWord? (String.ofList (trim s.toList)) = Direction.ofWord? s := by
  rw [Direction.ofWord?, String.toList_ofList, trim_trim, Direction.ofWord?]

theorem toOption_map {ε α β : Type} (r : Except ε α) (f : α → β) :
    (r.map f).toOption = r.toOption.map f := by
  cases r <;> rfl

theorem trim_after (text : Option String) :
    trim (Item.after text).toList = trim (text.getD "").toList := by
  cases text with
  | none => rfl
  | some t => simp [Item.after, trim_cons_blank (show isBlank ' ' = true by decide)]

/-- A word, a colon, a point and what is said after it. -/
theorem readEntry_point {word tail : String} (hword : word.toList.all isLetter = true)
    (hne : word.toList ≠ []) (htail : ¬ ['/', '/'] <:+: tail.toList) :
    readEntry (content (word ++ ": " ++ FormatError.Cause.point x y ++ tail).toList) =
      entryOf word.toList (trim ((FormatError.Cause.point x y).toList ++ tail.toList)) := by
  have hslash : '/' ∉ word.toList ++ ':' :: ' ' :: (FormatError.Cause.point x y).toList := by
    have hletters : '/' ∉ word.toList := fun hmem =>
      absurd (List.all_eq_true.1 hword '/' hmem) (by decide)
    simp [hletters, toList_point, slash_not_mem_pointOf (.of_int x) (.of_int y)]
  have hline : (word ++ ": " ++ FormatError.Cause.point x y ++ tail).toList =
      word.toList ++ ':' :: ' ' :: ((FormatError.Cause.point x y).toList ++ tail.toList) := by
    simp
  have hcomment := not_comment_append hslash htail
  rw [List.append_assoc, List.cons_append, List.cons_append] at hcomment
  rw [hline, readEntry_word hword hne hcomment]

theorem not_comment_after {text : Option String} (h : ∀ t ∈ text, ¬ ['/', '/'] <:+: t.toList) :
    ¬ ['/', '/'] <:+: (Item.after text).toList := by
  cases text with
  | none => decide
  | some t =>
    rw [Item.after, String.toList_append]
    exact not_comment_append (by decide) (h t rfl)

theorem not_comment_int (n : Int) : ¬ ['/', '/'] <:+: (toString n).toList := by
  rw [toList_toString_eq_numeral]
  exact not_comment (slash_not_mem_numeral (.of_int n))

/-- No script has its digits among the capitals. -/
theorem toLower_of_isDigit {c : Char} (h : isDigit c = true) : c.toLower = c := by
  have hgaps : ∀ z ∈ zeroDigits, z + 10 ≤ 65 ∨ 90 < z := by decide
  obtain ⟨z, hmem, hrange⟩ := exists_zeroDigit h
  have hz := hgaps z hmem
  have hnot : ¬ (c.val ≥ 'A'.val ∧ c.val ≤ 'Z'.val) := by
    rintro ⟨hlow, hhigh⟩
    have hlow' : 65 ≤ c.toNat := UInt32.le_iff_toNat_le.1 hlow
    have hhigh' : c.toNat ≤ 90 := UInt32.le_iff_toNat_le.1 hhigh
    omega
  exact dif_neg hnot

/-- What begins with a sign or a digit is not a word for a bag without end. -/
theorem not_infinite_of_head? (h : ∀ c ∈ cs.head?, isDigit c = true ∨ c = '-' ∨ c = '+') :
    Entry.infiniteWords.contains (String.ofList (lowerCase cs)) = false := by
  have hwords : ∀ word ∈ Entry.infiniteWords, word.toList.head? = some 'i' ∨
      word.toList.head? = some 'u' := by
    simp [Entry.infiniteWords]
  have hhead : ∀ c ∈ (lowerCase cs).head?, isDigit c = true ∨ c = '-' ∨ c = '+' := by
    intro c hc
    rw [lowerCase, List.head?_map, Option.mem_def, Option.map_eq_some_iff] at hc
    obtain ⟨d, hd, rfl⟩ := hc
    rcases h d hd with hdigit | rfl | rfl
    · exact .inl (by rwa [toLower_of_isDigit hdigit])
    · decide
    · decide
  -- the two differ in their first characters
  rw [Bool.eq_false_iff]
  intro hmem
  have hword := hwords _ (List.contains_iff_mem.1 hmem)
  rw [String.toList_ofList] at hword
  rcases hword with hword | hword
  · exact absurd (hhead _ hword) (by decide)
  · exact absurd (hhead _ hword) (by decide)

/-- A written number is not a word for a bag without end. -/
theorem not_infinite (n : Int) :
    Entry.infiniteWords.contains (String.ofList (lowerCase (toString n).toList)) = false := by
  refine not_infinite_of_head? fun c hc => ?_
  rw [toList_toString] at hc
  split at hc
  · exact .inr (.inl (Option.some.inj hc).symm)
  · exact .inl (isDigit_of_isDigit (isDigit_toDigits (List.mem_of_head? hc)))

theorem trim_int (n : Int) : trim (toString n).toList = (toString n).toList :=
  trim_eq_self fun _ hc => isBlank_toString hc

theorem toOption_bag? {n : Int} (h : isWritable n = true) (shown : String) :
    (Entry.bag? (.ofString (toString n)) shown).toOption = (Item.bag (.number n)).meant? := by
  simp only [Entry.bag?, LooseText.toString?_ofString, Option.getD_some, trim_int, not_infinite,
    readInteger_toString h, Item.meant?, Bool.false_eq_true, if_false]
  split <;> rfl

/-! ### What each word begins -/

theorem entryOf_dimension (rest : List Char) : entryOf "Dimension".toList rest =
    readPoint rest >>= fun p => made (Entry.dimension? p.1 p.2.1) := rfl

theorem entryOf_wall (rest : List Char) : entryOf "Wall".toList rest =
    readPoint rest >>= fun p => made (Entry.wall? p.1 p.2.1 (.ofString (String.ofList p.2.2))) := rfl

theorem entryOf_beeper (rest : List Char) : entryOf "Beeper".toList rest =
    readPoint rest >>= fun p => readCount p.2.2 >>= fun count =>
      made (Entry.beepers? p.1 p.2.1 count) := rfl

theorem entryOf_karel (rest : List Char) : entryOf "Karel".toList rest =
    readPoint rest >>= fun p => made (Entry.robot? p.1 p.2.1
      (.ofString (if p.2.2.isEmpty then "east" else String.ofList p.2.2))) := rfl

theorem entryOf_beeperBag (rest : List Char) : entryOf "BeeperBag".toList rest =
    made (Entry.bag? (.ofString (String.ofList rest)) (String.ofList (quoted rest))) := rfl

theorem readCount_after {count : Option Int} (h : ∀ n ∈ count, isWritable n = true) :
    readCount (trim (Item.after (count.map toString)).toList) = .ok (count.getD 1) := by
  rw [trim_after]
  cases count with
  | none => rfl
  | some n =>
    have hne : (toString n).toList.isEmpty = false := by simpa using toString_ne_nil n
    simp only [Option.map_some, Option.getD_some, trim_int, readCount, hne, Bool.false_eq_true,
      if_false, readInteger_toString (h n rfl)]

/-- The direction that is meant is the one that is read, whatever blanks are around it. -/
theorem facing_after {facing : Option String} (h : ∀ t ∈ facing, Item.OnLine t) :
    Direction.ofWord? (if (trim (Item.after facing).toList).isEmpty then "east"
      else String.ofList (trim (Item.after facing).toList)) =
      Direction.ofWord? (facing.getD "east") := by
  rw [trim_after]
  cases facing with
  | none => rfl
  | some t =>
    have hne : (trim t.toList).isEmpty = false := by simpa using (h t rfl).notBlank
    simp only [Option.getD_some, hne, Bool.false_eq_true, if_false, ofWord?_trim]

/-- The line of an item comes to an entry that was made, which is the one that is meant. -/
def ReadsLine (i : Item) : Prop :=
  ∃ r, readEntry (content i.line.toList) = made r ∧ r.toOption = i.meant?

theorem readsLine_dimension {width height : Int} (h : (Item.dimension width height).Proper) :
    ReadsLine (.dimension width height) := by
  have hline : (Item.dimension width height).line =
      "Dimension" ++ ": " ++ FormatError.Cause.point width height ++ "" := by
    simp [Item.line]
  refine ⟨Entry.dimension? width height, ?_, rfl⟩
  rw [hline, readEntry_point (by decide) (by decide) (by decide), entryOf_dimension,
    readPoint_point h.1 h.2, ok_bind]

theorem readsLine_robot {facing : Option String} (h : (Item.robot x y facing).Proper) :
    ReadsLine (.robot x y facing) := by
  obtain ⟨⟨hx, hy⟩, htext⟩ := h
  have hline : (Item.robot x y facing).line =
      "Karel" ++ ": " ++ FormatError.Cause.point x y ++ Item.after facing := by
    simp [Item.line]
  refine ⟨Entry.robot? x y (.ofString (if (trim (Item.after facing).toList).isEmpty then "east"
    else String.ofList (trim (Item.after facing).toList))), ?_, ?_⟩
  · rw [hline, readEntry_point (by decide) (by decide)
      (not_comment_after fun t ht => (htext t ht).noComment), entryOf_karel, readPoint_point hx hy,
      ok_bind]
  · rw [Entry.robot?, toOption_map, toOption_direction?, facing_after htext, Item.meant?]

theorem readsLine_wall {side : String} (h : (Item.wall x y side).Proper) :
    ReadsLine (.wall x y side) := by
  obtain ⟨⟨hx, hy⟩, htext⟩ := h
  have hline : (Item.wall x y side).line =
      "Wall" ++ ": " ++ FormatError.Cause.point x y ++ Item.after (some side) := by
    simp [Item.line]
  have hcomment : ¬ ['/', '/'] <:+: (Item.after (some side)).toList :=
    not_comment_after fun t ht => Option.mem_some_iff.1 ht ▸ htext.noComment
  refine ⟨Entry.wall? x y (.ofString (String.ofList (trim (Item.after (some side)).toList))), ?_, ?_⟩
  · rw [hline, readEntry_point (by decide) (by decide) hcomment, entryOf_wall,
      readPoint_point hx hy, ok_bind]
  · rw [Entry.wall?, toOption_map, toOption_direction?, trim_after, Option.getD_some, ofWord?_trim,
      Item.meant?]

theorem readsLine_beepers {count : Option Int} (h : (Item.beepers x y count).Proper) :
    ReadsLine (.beepers x y count) := by
  obtain ⟨⟨hx, hy⟩, hcount⟩ := h
  have hline : (Item.beepers x y count).line =
      "Beeper" ++ ": " ++ FormatError.Cause.point x y ++ Item.after (count.map toString) := by
    simp [Item.line]
  have hcomment : ∀ t ∈ count.map toString, ¬ ['/', '/'] <:+: t.toList := by
    simp only [Option.mem_def, Option.map_eq_some_iff]
    rintro t ⟨n, -, rfl⟩
    exact not_comment_int n
  refine ⟨Entry.beepers? x y (count.getD 1), ?_, rfl⟩
  rw [hline, readEntry_point (by decide) (by decide) (not_comment_after hcomment), entryOf_beeper,
    readPoint_point hx hy, ok_bind, readCount_after hcount, ok_bind]

theorem readsLine_bag {amount : Amount} (h : (Item.bag amount).Proper) :
    ReadsLine (.bag amount) := by
  cases amount with
  | number n =>
    have hslash : '/' ∉ "BeeperBag: ".toList := by decide
    have happend := not_comment_append hslash (not_comment_int n)
    have hcomment : ¬ ['/', '/'] <:+: "BeeperBag".toList ++ ':' :: ' ' :: (toString n).toList :=
      happend
    have hline : (Item.bag (.number n)).line.toList =
        "BeeperBag".toList ++ ':' :: ' ' :: (toString n).toList := by
      simp [Item.line]
    refine ⟨Entry.bag? (.ofString (toString n)) (String.ofList (quoted (toString n).toList)), ?_,
      toOption_bag? h _⟩
    rw [hline, readEntry_word (by decide) (by decide) hcomment, trim_int, entryOf_beeperBag,
      String.ofList_toList]
  | endless word =>
    have hword : word ∈ Entry.infiniteWords := h
    simp only [Entry.infiniteWords, List.mem_cons, List.not_mem_nil, or_false] at hword
    refine ⟨.ok (.bag none), ?_, rfl⟩
    rcases hword with rfl | rfl | rfl | rfl <;> rfl

/-- The line of an item is read as the entry that is meant. -/
theorem readEntry_line {i : Item} (h : i.Proper) : ReadsLine i := by
  cases i with
  | dimension => exact readsLine_dimension h
  | robot => exact readsLine_robot h
  | wall => exact readsLine_wall h
  | beepers => exact readsLine_beepers h
  | bag => exact readsLine_bag h

/-! ### Several lines -/

theorem isBlank_of_isLineBreak {c : Char} (h : isLineBreak c = true) : isBlank c = true := by
  simp only [isLineBreak, Bool.or_eq_true, Bool.and_eq_true, decide_eq_true_eq, beq_iff_eq] at h
  simp only [isBlank, Bool.or_eq_true, Bool.and_eq_true, decide_eq_true_eq, beq_iff_eq]
  omega

theorem isLineBreak_eq_false {c : Char} (h : isBlank c = false) : isLineBreak c = false := by
  cases hbreak : isLineBreak c with
  | false => rfl
  | true =>
    rw [isBlank_of_isLineBreak hbreak] at h
    cases h

/-- A text has no line break in it. -/
def Unbroken (text : String) : Prop :=
  ∀ c ∈ text.toList, isLineBreak c = false

theorem unbroken_of_any {text : String} (h : text.toList.any isLineBreak = false) :
    Unbroken text := by
  simpa [Unbroken] using h

theorem Unbroken.append {s t : String} (hs : Unbroken s) (ht : Unbroken t) : Unbroken (s ++ t) := by
  intro c hc
  rw [String.toList_append, List.mem_append] at hc
  exact hc.elim (hs c) (ht c)

theorem unbroken_int (n : Int) : Unbroken (toString n) :=
  fun _ hc => isLineBreak_eq_false (isBlank_toString hc)

theorem unbroken_digits (h : ∀ c ∈ ds, isDigit c = true) : Unbroken (String.ofList ds) := by
  intro c hc
  rw [String.toList_ofList] at hc
  exact isLineBreak_eq_false (isBlank_of_isDigit (h c hc))

theorem unbroken_point (x y : Int) : Unbroken (FormatError.Cause.point x y) := by
  have hopen : Unbroken "(" := unbroken_of_any (by decide)
  have hcomma : Unbroken ", " := unbroken_of_any (by decide)
  have hclose : Unbroken ")" := unbroken_of_any (by decide)
  exact (((hopen.append (unbroken_int x)).append hcomma).append (unbroken_int y)).append hclose

theorem unbroken_after {text : Option String} (h : ∀ t ∈ text, Unbroken t) :
    Unbroken (Item.after text) := by
  cases text with
  | none => exact fun c hc => absurd hc (by simp [Item.after])
  | some t =>
    have hblank : Unbroken " " := unbroken_of_any (by decide)
    exact hblank.append (h t rfl)

/-- What can be written is written on one line. -/
theorem unbroken_line {i : Item} (h : i.Proper) : Unbroken i.line := by
  have hwords : ∀ word ∈ ["Dimension: ", "Karel: ", "Wall: ", "Beeper: ", "BeeperBag: "] ++
      Entry.infiniteWords, Unbroken word := by
    have hany : ∀ word ∈ ["Dimension: ", "Karel: ", "Wall: ", "Beeper: ", "BeeperBag: "] ++
        Entry.infiniteWords, word.toList.any isLineBreak = false := by decide
    exact fun word hword => unbroken_of_any (hany word hword)
  cases i with
  | dimension width height => exact (hwords _ (by simp)).append (unbroken_point _ _)
  | robot x y facing =>
    exact ((hwords _ (by simp)).append (unbroken_point _ _)).append
      (unbroken_after fun t ht => (h.2 t ht).noBreak)
  | wall x y side =>
    exact ((hwords _ (by simp)).append (unbroken_point _ _)).append
      (unbroken_after fun t ht => Option.mem_some_iff.1 ht ▸ h.2.noBreak)
  | beepers x y count =>
    refine ((hwords _ (by simp)).append (unbroken_point _ _)).append (unbroken_after fun t ht => ?_)
    obtain ⟨n, -, rfl⟩ := Option.map_eq_some_iff.1 ht
    exact unbroken_int n
  | bag amount =>
    cases amount with
    | number n => exact (hwords _ (by simp)).append (unbroken_int n)
    | endless word =>
      have hword : word ∈ Entry.infiniteWords := h
      exact (hwords _ (by simp)).append (hwords word (by simp [hword]))

/-- The lines of a text are the lines of which it was put together. -/
theorem lines_ofItems {items : List Item} (h : ∀ i ∈ items, i.Proper) :
    Text.lines ("\n".intercalate (items.map Item.line)).toList =
      items.map fun i => i.line.toList := by
  have hlines : ∀ l ∈ items.map (fun i => i.line.toList),
      (∀ c ∈ l, isLineBreak c = false) ∧ l ≠ [] := by
    intro l hl
    obtain ⟨i, hi, rfl⟩ := List.mem_map.1 hl
    refine ⟨unbroken_line (h i hi), ?_⟩
    rcases i with _ | _ | _ | _ | (_ | _) <;> simp [Item.line]
  rw [String.toList_intercalate, List.map_map]
  exact lines_intercalate (fun l hl => (hlines l hl).1) fun l hl => (hlines l hl).2

end Lines

end GridRobot
