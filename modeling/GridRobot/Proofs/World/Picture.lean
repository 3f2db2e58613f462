import GridRobot.Proofs.Text.Numeral
import GridRobot.Proofs.World.Invariant
import GridRobot.World.Picture
import Mathlib.Data.List.DropRight

/-!
# What can be told from a picture

A picture shows a world but for what it hides: the beepers under the robot, how many more than ten
lie on a cell, and the walls at the end of the grid. Two worlds have the same picture exactly when
they differ in nothing else. A world of which the bag holds a number that is too long to be written
has no picture.

## Main definitions

* `Description.drawn` is the picture of a layout, if there is one.
* `Description.Shows` says that two layouts have the same glyphs in all places of a picture.
* `World.LooksLike` says that two worlds differ only in what a picture hides.

## Main statements

* `Description.picture_inj`: the lines of a picture can be told apart.
* `Description.pictureLines_eq_iff`: so can the places of its lines.
* `World.shows_iff`: what the glyphs tell of a world.
* `World.drawn_eq_iff`: two worlds have the same picture when they look alike.
-/

namespace GridRobot

/-! ### Lists made of parts -/

section Parts

variable {α β : Type}

/-- Parts of the same lengths can be told apart. -/
theorem flatMap_inj {f g : α → List β} {l : List α} (hlength : ∀ x ∈ l, (f x).length = (g x).length)
    (h : l.flatMap f = l.flatMap g) : ∀ x ∈ l, f x = g x := by
  induction l with
  | nil => exact List.forall_mem_nil _
  | cons a l ih =>
    rw [List.flatMap_cons, List.flatMap_cons] at h
    obtain ⟨hfirst, hrest⟩ := List.append_inj h (hlength a List.mem_cons_self)
    rw [List.forall_mem_cons]
    exact ⟨hfirst, ih (fun x hx => hlength x (List.mem_cons_of_mem _ hx)) hrest⟩

/-- What is put between the parts can be left out again. -/
theorem intersperse_inj {sep : α} {l m : List α} (h : l.intersperse sep = m.intersperse sep) :
    l = m := by
  induction l generalizing m with
  | nil =>
    cases m with
    | nil => rfl
    | cons b m => cases m <;> simp at h
  | cons a l ih =>
    cases m with
    | nil => cases l <;> simp at h
    | cons b m =>
      cases l with
      | nil => cases m <;> simp_all
      | cons a' l =>
        cases m with
        | nil => simp at h
        | cons b' m =>
          rw [List.intersperse_cons_cons, List.intersperse_cons_cons, List.cons.injEq,
            List.cons.injEq] at h
          rw [h.1, ih h.2.2]

theorem mem_intersperse {sep a : α} {l : List α} (h : a ∈ l.intersperse sep) : a = sep ∨ a ∈ l := by
  induction l with
  | nil => cases h
  | cons b l ih =>
    cases l with
    | nil => exact .inr h
    | cons b' l =>
      rw [List.intersperse_cons_cons] at h
      rcases List.mem_cons.1 h with rfl | h
      · exact .inr List.mem_cons_self
      · rcases List.mem_cons.1 h with rfl | h
        · exact .inl rfl
        · exact (ih h).imp_right (List.mem_cons_of_mem b)

/-- What is cut off at the end can be put there again, if the length is known. -/
theorem rdropWhile_inj [DecidableEq α] {a : α} {l m : List α} (hlength : l.length = m.length)
    (h : l.rdropWhile (· == a) = m.rdropWhile (· == a)) : l = m := by
  have htail (l : List α) : l.rtakeWhile (· == a) =
      .replicate (l.length - (l.rdropWhile (· == a)).length) a := by
    have hall : ∀ b ∈ l.rtakeWhile (· == a), b = a := fun b hb =>
      eq_of_beq (List.mem_rtakeWhile_imp (p := (· == a)) hb)
    have hsum := congrArg List.length (List.rdropWhile_append_rtakeWhile (p := (· == a)) (l := l))
    rw [List.length_append] at hsum
    rw [List.eq_replicate_of_mem hall]
    congr 1
    omega
  rw [← List.rdropWhile_append_rtakeWhile (p := (· == a)) (l := l),
    ← List.rdropWhile_append_rtakeWhile (p := (· == a)) (l := m), htail l, htail m, h, hlength]

/-- Sections can be told apart by their headings, if nothing else looks like a heading. -/
theorem sections_inj {p : β → Bool} {l m : List (β × List β)}
    (hl : ∀ s ∈ l, p s.1 = true ∧ ∀ b ∈ s.2, p b = false)
    (hm : ∀ s ∈ m, p s.1 = true ∧ ∀ b ∈ s.2, p b = false)
    (h : l.flatMap (fun s => s.1 :: s.2) = m.flatMap (fun s => s.1 :: s.2)) : l = m := by
  -- a section goes on until the next heading
  have hcut {l : List (β × List β)} {text : List β} (hl : ∀ s ∈ l, p s.1 = true)
      (htext : ∀ b ∈ text, p b = false) :
      (text ++ l.flatMap fun s => s.1 :: s.2).takeWhile (fun b => !p b) = text := by
    have hnext : (l.flatMap fun s => s.1 :: s.2).takeWhile (fun b => !p b) = [] := by
      cases l with
      | nil => rfl
      | cons s l => simp [hl s List.mem_cons_self]
    rw [List.takeWhile_append_of_pos (fun b hb => by simp [htext b hb]), hnext, List.append_nil]
  induction l generalizing m with
  | nil =>
    cases m with
    | nil => rfl
    | cons s m => simp at h
  | cons s l ih =>
    cases m with
    | nil => simp at h
    | cons s' m =>
      rw [List.forall_mem_cons] at hl hm
      simp only [List.flatMap_cons, List.cons_append, List.cons.injEq] at h
      have htext : s.2 = s'.2 := by
        rw [← hcut (fun s hs => (hl.2 s hs).1) hl.1.2, h.2, hcut (fun s hs => (hm.2 s hs).1) hm.1.2]
      obtain ⟨-, hrest⟩ := List.append_inj h.2 (congrArg List.length htext)
      rw [Prod.ext h.1 htext, ih hl.2 hm.2 hrest]

end Parts

theorem mem_upTo {x n : Int} : x ∈ upTo n ↔ 0 ≤ x ∧ x < n := by
  simp only [upTo, List.mem_map, List.mem_range]
  constructor
  · rintro ⟨k, hk, rfl⟩
    simp only [Int.ofNat_eq_natCast]
    omega
  · rintro ⟨hx, hn⟩
    refine ⟨x.toNat, by omega, ?_⟩
    simp only [Int.ofNat_eq_natCast]
    omega

@[simp] theorem length_upTo (n : Int) : (upTo n).length = n.toNat := by
  simp [upTo]

theorem upTo_succ (n : Nat) : upTo (n + 1) = upTo n ++ [(n : Int)] := by
  have hn : ((n : Int) + 1).toNat = n + 1 := by omega
  simp [upTo, hn, List.range_succ]

theorem Text.toString_inj {y z : Int} (h : toString y = toString z) : y = z := by
  have hlist := congrArg String.toList h
  rw [toList_toString, toList_toString] at hlist
  have hminus (n : Nat) : ∀ ds, Nat.toDigits 10 n ≠ '-' :: ds := fun ds hds => by
    have hdigit : ('-').isDigit = true := isDigit_toDigits (hds ▸ List.mem_cons_self)
    revert hdigit
    decide
  have hdigits {m n : Nat} (h : Nat.toDigits 10 m = Nat.toDigits 10 n) : m = n := by
    rw [← Nat.ofDigitChars_toDigits (b := 10) (n := m) (by decide) (by decide), h,
      Nat.ofDigitChars_toDigits (by decide) (by decide)]
  split at hlist <;> split at hlist
  · have := hdigits (List.cons.inj hlist).2
    omega
  · exact absurd hlist.symm (hminus _ _)
  · exact absurd hlist (hminus _ _)
  · have := hdigits hlist
    omega

namespace Description

variable {d d' : Description} {c : Cell} {x y : Int}

/-! ### Glyphs -/

/-- Ten beepers and more look the same. -/
theorem countGlyph_min (n : Nat) : countGlyph n = countGlyph (min n 10 : Nat) := by
  unfold countGlyph
  grind

/-- Fewer beepers can be counted. -/
theorem countGlyph_eq_iff {m n : Nat} :
    countGlyph m = countGlyph n ↔ m = n ∨ (10 ≤ m ∧ 10 ≤ n) := by
  have hsmall : ∀ i < 11, ∀ j < 11, countGlyph (i : Nat) = countGlyph (j : Nat) → i = j := by decide
  constructor
  · intro h
    rw [countGlyph_min m, countGlyph_min n] at h
    have := hsmall _ (by omega) _ (by omega) h
    omega
  · intro h
    have hmin : min m 10 = min n 10 := by omega
    rw [countGlyph_min m, countGlyph_min n, hmin]

/-- A glyph that stands for a cell. -/
def isGlyph (a : Char) : Bool :=
  a != ' ' && a != '-' && a != '\n'

theorem isGlyph_arrow (f : Direction) : isGlyph f.arrow = true := by
  cases f <;> decide

theorem isGlyph_countGlyph (n : Int) : isGlyph (countGlyph n) = true := by
  have hsmall : ∀ i < 11, isGlyph (countGlyph (i : Nat)) = true := by decide
  by_cases hn : n ≤ 0
  · simp only [countGlyph, hn, if_true]
    decide
  · obtain ⟨k, rfl⟩ := Int.eq_ofNat_of_zero_le (by omega : 0 ≤ n)
    rw [countGlyph_min]
    exact hsmall _ (by omega)

theorem isGlyph_glyph (d : Description) (c : Cell) : isGlyph (d.glyph c) = true := by
  unfold glyph
  split
  · exact isGlyph_arrow _
  · exact isGlyph_countGlyph _

theorem arrow_ne_countGlyph (f : Direction) (n : Nat) : f.arrow ≠ countGlyph n := by
  have hsmall : ∀ i < 11, ∀ f ∈ Direction.all, f.arrow ≠ countGlyph (i : Nat) := by decide
  rw [countGlyph_min]
  exact hsmall _ (by omega) f (by cases f <;> decide)

theorem arrow_inj {f g : Direction} (h : f.arrow = g.arrow) : f = g := by
  revert h
  cases f <;> cases g <;> decide

/-! ### Lines -/

/-- The line below a row, if walls are to be shown. -/
def below (d : Description) (y : Int) : List (List Char) :=
  let line := if 0 < y then d.floorRow y else []
  if line.isEmpty then [] else [line]

theorem rowLines_eq (d : Description) (y : Int) : d.rowLines y = d.row y :: d.below y := rfl

theorem mem_row {a : Char} (h : a ∈ d.row y) : isGlyph a = true ∨ a = '|' ∨ a = ' ' := by
  simp only [row, List.mem_flatMap] at h
  obtain ⟨x, -, h⟩ := h
  split at h <;> simp only [List.mem_cons, List.not_mem_nil, or_false] at h
  · obtain rfl | rfl := h
    · exact .inl (isGlyph_glyph d _)
    · unfold divider
      split <;> simp
  · exact .inl (h ▸ isGlyph_glyph d _)

/-- A line below a row without what has been cut off at its end. -/
theorem floorRow_eq (d : Description) (y : Int) : d.floorRow y =
    (((upTo d.width).map fun x => d.floor ⟨x, y⟩).intersperse ' ').rdropWhile (· == ' ') := rfl

theorem mem_floorRow {a : Char} (h : a ∈ d.floorRow y) : a = '-' ∨ a = ' ' := by
  rw [floorRow_eq] at h
  rcases mem_intersperse ((List.rdropWhile_prefix _ _).subset h) with rfl | h
  · exact .inr rfl
  · obtain ⟨x, -, rfl⟩ := List.mem_map.1 h
    unfold floor
    split <;> simp

theorem mem_below {line : List Char} (h : line ∈ d.below y) : line = d.floorRow y := by
  unfold below at h
  by_cases hy : 0 < y
  · simp only [hy, if_true] at h
    split at h
    · exact absurd h List.not_mem_nil
    · exact List.mem_singleton.1 h
  · simp [hy] at h

/-- Does a line show cells? -/
def showsCells (line : List Char) : Bool :=
  line.any isGlyph

theorem showsCells_row (hwidth : 0 < d.width) (y : Int) : showsCells (d.row y) = true := by
  refine List.any_eq_true.2 ⟨d.glyph ⟨0, y⟩, ?_, isGlyph_glyph d _⟩
  refine List.mem_flatMap.2 ⟨0, mem_upTo.2 ⟨le_refl 0, hwidth⟩, ?_⟩
  split <;> simp

theorem showsCells_below {line : List Char} (h : line ∈ d.below y) : showsCells line = false := by
  rw [mem_below h]
  refine List.any_eq_false.2 fun a ha => ?_
  rcases mem_floorRow ha with rfl | rfl <;> decide

/-- A row is made of pairs, and a last glyph. -/
theorem row_eq {n : Nat} (h : d.width = n + 1) (y : Int) : d.row y =
    ((upTo n).flatMap fun x => [d.glyph ⟨x, y⟩, d.divider ⟨x, y⟩]) ++ [d.glyph ⟨n, y⟩] := by
  unfold row
  rw [h, upTo_succ, List.flatMap_append, List.flatMap_singleton, if_neg (by omega)]
  congr 1
  refine List.flatMap_congr fun x hx => ?_
  have hlt := (mem_upTo.1 hx).2
  rw [if_pos (by omega)]

theorem exists_width (h : 0 < d.width) : ∃ n : Nat, d.width = n + 1 :=
  ⟨(d.width - 1).toNat, by omega⟩

theorem length_row (hwidth : 0 < d.width) (y : Int) :
    ((d.row y).length : Int) = 2 * d.width - 1 := by
  obtain ⟨n, hn⟩ := exists_width hwidth
  rw [row_eq hn, List.length_append, List.length_flatMap]
  simp only [List.length_cons, List.length_nil, List.map_const', List.sum_replicate_nat,
    length_upTo]
  omega

/-- The glyphs of a row can be told apart. -/
theorem row_inj (hwidth : 0 < d.width) (hwidth' : 0 < d'.width) (h : d.row y = d'.row y) :
    d.width = d'.width ∧ (∀ x, 0 ≤ x → x < d.width → d.glyph ⟨x, y⟩ = d'.glyph ⟨x, y⟩) ∧
      ∀ x, 0 ≤ x → x < d.width - 1 → d.divider ⟨x, y⟩ = d'.divider ⟨x, y⟩ := by
  have hsame : d.width = d'.width := by
    have hlength := length_row hwidth y
    rw [h, length_row hwidth' y] at hlength
    omega
  obtain ⟨n, hn⟩ := exists_width hwidth
  rw [row_eq hn, row_eq (hsame ▸ hn)] at h
  obtain ⟨hpairs, hlast⟩ := List.append_inj' h rfl
  have hpair := flatMap_inj (fun _ _ => by simp) hpairs
  simp only [List.cons.injEq, and_true] at hpair hlast
  refine ⟨hsame, fun x hx hlt => ?_, fun x hx hlt => ?_⟩
  · by_cases hend : x = n
    · exact hend ▸ hlast
    · exact (hpair x (mem_upTo.2 ⟨hx, by omega⟩)).1
  · exact (hpair x (mem_upTo.2 ⟨hx, by omega⟩)).2

/-- So can the walls that are shown below a row. -/
theorem floorRow_inj (hwidth : d.width = d'.width) (h : d.floorRow y = d'.floorRow y) :
    ∀ x, 0 ≤ x → x < d.width → d.floor ⟨x, y⟩ = d'.floor ⟨x, y⟩ := by
  rw [floorRow_eq, floorRow_eq, ← hwidth] at h
  have hfloors := intersperse_inj (rdropWhile_inj (by simp [List.length_intersperse]) h)
  exact fun x hx hlt => List.map_inj_left.1 hfloors x (mem_upTo.2 ⟨hx, hlt⟩)

theorem below_inj (hy : 0 < y) (h : d.below y = d'.below y) : d.floorRow y = d'.floorRow y := by
  unfold below at h
  simp only [hy, if_true] at h
  split at h <;> split at h <;> simp_all

theorem bagLine_inj (h : d.bagLine = d'.bagLine) : d.bag = d'.bag := by
  have hword (n : Int) : "infinite".toList ≠ (toString n).toList := fun heq => by
    have hblank : 'i' ∈ (toString n).toList := heq ▸ (by decide)
    rw [Text.toList_toString] at hblank
    have hdigit : ('i').isDigit = true := by
      split at hblank
      · exact Text.isDigit_toDigits ((List.mem_cons.1 hblank).resolve_left (by decide))
      · exact Text.isDigit_toDigits hblank
    revert hdigit
    decide
  have hrest := List.append_cancel_left h
  cases hd : d.bag <;> cases hd' : d'.bag <;> simp only [hd, hd'] at hrest
  · rfl
  · exact absurd hrest (hword _)
  · exact absurd hrest.symm (hword _)
  · rw [Text.toString_inj (String.toList_inj.1 hrest)]

/-! ### Pictures -/

/-- Two layouts of one size have the same glyphs in all places of a picture. -/
structure Shows (d d' : Description) : Prop where
  width : d.width = d'.width
  height : d.height = d'.height
  bag : d.bag = d'.bag
  glyph : ∀ c, inside d.width d.height c → d.glyph c = d'.glyph c
  divider : ∀ c, inside d.width d.height c → c.x < d.width - 1 → d.divider c = d'.divider c
  floor : ∀ c, inside d.width d.height c → 0 < c.y → d.floor c = d'.floor c

theorem inside_iff {width height : Int} :
    inside width height c ↔ (0 ≤ c.x ∧ c.x < width) ∧ 0 ≤ c.y ∧ c.y < height := by
  simp [inside, and_assoc]

theorem Shows.pictureLines_eq (h : d.Shows d') : d.pictureLines = d'.pictureLines := by
  have hcell (x y : Int) (hx : x ∈ upTo d.width) (hy : y ∈ upTo d.height) :
      inside d.width d.height ⟨x, y⟩ := inside_iff.2 ⟨mem_upTo.1 hx, mem_upTo.1 hy⟩
  have hrows (y : Int) (hy : y ∈ upTo d.height) : d.rowLines y = d'.rowLines y := by
    have hrow : d.row y = d'.row y := by
      unfold row
      rw [← h.width]
      refine List.flatMap_congr fun x hx => ?_
      rw [h.glyph _ (hcell x y hx hy)]
      split
      · next hlt => rw [h.divider _ (hcell x y hx hy) hlt]
      · rfl
    have hfloor (hpos : 0 < y) : d.floorRow y = d'.floorRow y := by
      have hfloors : ((upTo d.width).map fun x => d.floor ⟨x, y⟩) =
          (upTo d.width).map fun x => d'.floor ⟨x, y⟩ :=
        List.map_inj_left.2 fun x hx => h.floor _ (hcell x y hx hy) hpos
      rw [floorRow_eq, floorRow_eq, ← h.width, hfloors]
    rw [rowLines_eq, rowLines_eq, hrow]
    unfold below
    by_cases hpos : 0 < y
    · simp only [hpos, if_true, hfloor hpos]
    · simp only [hpos, if_false]
  have hbag : d.bagLine = d'.bagLine := by
    unfold bagLine
    rw [h.bag]
  unfold pictureLines
  rw [hbag, ← h.height]
  congr 1
  exact List.flatMap_congr fun y hy => hrows y (List.mem_reverse.1 hy)

theorem shows_of_pictureLines (hwidth : 0 < d.width) (hheight : 0 < d.height)
    (hwidth' : 0 < d'.width) (hheight' : 0 < d'.height) (h : d.pictureLines = d'.pictureLines) :
    d.Shows d' := by
  obtain ⟨hrows, hbag⟩ := List.append_inj' h rfl
  -- a section is a row with what is shown below it
  have hsections (d : Description) : (upTo d.height).reverse.flatMap d.rowLines =
      ((upTo d.height).reverse.map fun y => (d.row y, d.below y)).flatMap fun s => s.1 :: s.2 := by
    rw [List.flatMap_map]
    rfl
  have hheadings {d : Description} (hwidth : 0 < d.width) :
      ∀ s ∈ (upTo d.height).reverse.map fun y => (d.row y, d.below y),
        showsCells s.1 = true ∧ ∀ line ∈ s.2, showsCells line = false := by
    intro s hs
    obtain ⟨y, -, rfl⟩ := List.mem_map.1 hs
    exact ⟨showsCells_row hwidth y, fun line hline => showsCells_below hline⟩
  rw [hsections, hsections] at hrows
  have hsame := sections_inj (hheadings hwidth) (hheadings hwidth') hrows
  have hheights : d.height = d'.height := by
    have hlength := congrArg List.length hsame
    simp only [List.length_map, List.length_reverse, length_upTo] at hlength
    omega
  rw [← hheights, List.map_inj_left] at hsame
  have hrow (y : Int) (hy : 0 ≤ y ∧ y < d.height) : d.row y = d'.row y ∧ d.below y = d'.below y :=
    Prod.mk.inj (hsame y (List.mem_reverse.2 (mem_upTo.2 hy)))
  have hwidths := (row_inj hwidth hwidth' (hrow 0 ⟨le_refl 0, hheight⟩).1).1
  refine ⟨hwidths, hheights, bagLine_inj (List.singleton_inj.1 hbag), ?_, ?_, ?_⟩
  · intro c hc
    obtain ⟨hx, hy⟩ := inside_iff.1 hc
    exact (row_inj hwidth hwidth' (hrow c.y hy).1).2.1 c.x hx.1 hx.2
  · intro c hc hlt
    obtain ⟨hx, hy⟩ := inside_iff.1 hc
    exact (row_inj hwidth hwidth' (hrow c.y hy).1).2.2 c.x hx.1 hlt
  · intro c hc hpos
    obtain ⟨hx, hy⟩ := inside_iff.1 hc
    exact floorRow_inj hwidths (below_inj hpos (hrow c.y hy).2) c.x hx.1 hx.2

/-- The places of the lines of a picture can be told apart. -/
theorem pictureLines_eq_iff (hwidth : 0 < d.width) (hheight : 0 < d.height) (hwidth' : 0 < d'.width)
    (hheight' : 0 < d'.height) : d.pictureLines = d'.pictureLines ↔ d.Shows d' :=
  ⟨shows_of_pictureLines hwidth hheight hwidth' hheight', Shows.pictureLines_eq⟩

theorem not_newline {line : List Char} (h : line ∈ d.pictureLines) : '\n' ∉ line := by
  intro hmem
  rcases List.mem_append.1 h with h | h
  · obtain ⟨y, -, h⟩ := List.mem_flatMap.1 h
    rw [rowLines_eq] at h
    rcases List.mem_cons.1 h with rfl | h
    · rcases mem_row hmem with hglyph | hbar | hspace
      · revert hglyph
        decide
      · exact absurd hbar (by decide)
      · exact absurd hspace (by decide)
    · rw [mem_below h] at hmem
      rcases mem_floorRow hmem with hdash | hspace
      · exact absurd hdash (by decide)
      · exact absurd hspace (by decide)
  · rw [List.mem_singleton.1 h] at hmem
    unfold bagLine at hmem
    rcases List.mem_append.1 hmem with hmem | hmem
    · revert hmem
      decide
    · split at hmem
      · revert hmem
        decide
      · have hblank := Text.isBlank_toString hmem
        revert hblank
        decide

/-- The lines of a picture can be told apart. -/
theorem picture_inj (h : d.picture = d'.picture) : d.pictureLines = d'.pictureLines := by
  have hlines (d : Description) : d.picture.toList.splitOn '\n' = d.pictureLines := by
    have hjoined : d.picture.toList = ['\n'].intercalate d.pictureLines := by
      rw [picture, String.toList_intercalate, List.map_map]
      simp [Function.comp_def]
    have hne : d.pictureLines ≠ [] := List.append_ne_nil_of_right_ne_nil _ (List.cons_ne_nil _ _)
    rw [hjoined, List.splitOn_intercalate '\n' (fun _ => not_newline) hne]
  rw [← hlines d, h, hlines d']

/-- The picture of a layout, if the number in its bag can be written. -/
def drawn (d : Description) : Except Breakdown String :=
  if d.isDrawable then .ok d.picture else .error .badNumber

end Description

namespace World

variable {v w : World} {c : Cell}

/-! ### Worlds -/

/-- Two worlds of one size differ at most in what a picture hides. -/
structure LooksLike (v w : World) : Prop where
  width : v.width = w.width
  height : v.height = w.height
  robot : v.robot = w.robot
  bag : v.bag = w.bag
  /-- The walls between two cells are the same. -/
  walls : ∀ s : Wall, v.inside s.cell → v.inside s.flip.cell → (s ∈ v.walls ↔ s ∈ w.walls)
  /-- Away from the robot there are as many beepers, or many. -/
  counts : ∀ c, v.inside c → c ≠ v.robot.cell →
    v.count c = w.count c ∨ (10 ≤ v.count c ∧ 10 ≤ w.count c)

theorem countIn_snapshot (w : World) (c : Cell) :
    Description.countIn w.snapshot.beepers c = (w.count c : Int) := by
  unfold count snapshot
  dsimp only
  induction w.beepers with
  | nil => rfl
  | cons e rest ih =>
    obtain ⟨d, n⟩ := e
    by_cases h : d = c
    · simp [Description.countIn, countIn, h]
    · simpa [Description.countIn, countIn, h] using ih

theorem glyph_snapshot (w : World) (c : Cell) : w.snapshot.glyph c =
    if w.robot.cell = c then w.robot.facing.arrow
    else Description.countGlyph (w.count c : Nat) := by
  rw [← countIn_snapshot]
  rfl

theorem glyph_of_ne (hc : c ≠ w.robot.cell) :
    w.snapshot.glyph c = Description.countGlyph (w.count c : Nat) := by
  rw [glyph_snapshot, if_neg (Ne.symm hc)]

theorem glyph_robot (w : World) : w.snapshot.glyph w.robot.cell = w.robot.facing.arrow := by
  rw [glyph_snapshot, if_pos rfl]

/-- The glyphs of the cells tell where the robot is and which way it faces, and the counts of all
other cells up to ten. -/
theorem glyphs_eq_iff (hv : v.inside v.robot.cell) :
    (∀ c, v.inside c → v.snapshot.glyph c = w.snapshot.glyph c) ↔
      v.robot = w.robot ∧ ∀ c, v.inside c → c ≠ v.robot.cell →
        v.count c = w.count c ∨ (10 ≤ v.count c ∧ 10 ≤ w.count c) := by
  constructor
  · intro h
    have hrobot : v.robot = w.robot := by
      have hhere := h v.robot.cell hv
      rw [glyph_robot, glyph_snapshot] at hhere
      split at hhere
      · next hcell =>
        rcases hr : v.robot with ⟨cell, facing⟩
        rcases hr' : w.robot with ⟨cell', facing'⟩
        rw [hr, hr'] at hcell hhere
        rw [Robot.mk.injEq]
        exact ⟨hcell.symm, Description.arrow_inj hhere⟩
      · exact absurd hhere (Description.arrow_ne_countGlyph _ _)
    refine ⟨hrobot, fun c hc hne => ?_⟩
    have hglyph := h c hc
    rw [glyph_of_ne hne, glyph_of_ne (hrobot ▸ hne)] at hglyph
    exact Description.countGlyph_eq_iff.1 hglyph
  · rintro ⟨hrobot, hcounts⟩ c hc
    by_cases hne : c = v.robot.cell
    · rw [hne, glyph_robot, hrobot, glyph_robot]
    · rw [glyph_of_ne hne, glyph_of_ne (hrobot ▸ hne)]
      exact Description.countGlyph_eq_iff.2 (hcounts c hc hne)

theorem divider_eq_iff : v.snapshot.divider c = w.snapshot.divider c ↔
    (⟨c, .east⟩ ∈ v.walls ↔ ⟨c, .east⟩ ∈ w.walls) := by
  show (if v.walls.contains ⟨c, .east⟩ then '|' else ' ') =
    (if w.walls.contains ⟨c, .east⟩ then '|' else ' ') ↔ _
  by_cases h : (⟨c, .east⟩ : Wall) ∈ v.walls <;> by_cases h' : (⟨c, .east⟩ : Wall) ∈ w.walls <;>
    simp [h, h']

theorem floor_eq_iff : v.snapshot.floor c = w.snapshot.floor c ↔
    (⟨c, .south⟩ ∈ v.walls ↔ ⟨c, .south⟩ ∈ w.walls) := by
  show (if v.walls.contains ⟨c, .south⟩ then '-' else ' ') =
    (if w.walls.contains ⟨c, .south⟩ then '-' else ' ') ↔ _
  by_cases h : (⟨c, .south⟩ : Wall) ∈ v.walls <;> by_cases h' : (⟨c, .south⟩ : Wall) ∈ w.walls <;>
    simp [h, h']

/-- Every wall between two cells is the eastern side of one of them or the southern side of one. -/
theorem walls_eq_iff (hv : v.Valid) (hw : w.Valid) (hinside : ∀ c, v.inside c = w.inside c) :
    (∀ s : Wall, v.inside s.cell → v.inside s.flip.cell → (s ∈ v.walls ↔ s ∈ w.walls)) ↔
      (∀ c, v.inside c → v.inside (c.step .east) → (⟨c, .east⟩ ∈ v.walls ↔ ⟨c, .east⟩ ∈ w.walls)) ∧
        ∀ c, v.inside c → v.inside (c.step .south) →
          (⟨c, .south⟩ ∈ v.walls ↔ ⟨c, .south⟩ ∈ w.walls) := by
  constructor
  · exact fun h => ⟨fun c => h ⟨c, .east⟩, fun c => h ⟨c, .south⟩⟩
  · rintro ⟨heast, hsouth⟩ s hs hflip
    -- a western or northern side is looked at from the other cell
    have hother (h : s.flip ∈ v.walls ↔ s.flip ∈ w.walls) : s ∈ v.walls ↔ s ∈ w.walls := by
      rw [hv.walls_flip s hs hflip, h, hw.walls_flip s (hinside _ ▸ hs) (hinside _ ▸ hflip)]
    obtain ⟨c, side⟩ := s
    cases side with
    | east => exact heast c hs hflip
    | south => exact hsouth c hs hflip
    | west =>
      refine hother (heast _ hflip ?_)
      have hback := Cell.step_opposite c .west
      exact hback.symm ▸ hs
    | north =>
      refine hother (hsouth _ hflip ?_)
      have hback := Cell.step_opposite c .north
      exact hback.symm ▸ hs

/-- Whether the eastern neighbour of a cell is in the grid. -/
theorem inside_east (hc : v.inside c) : v.inside (c.step .east) ↔ c.x < v.width - 1 := by
  obtain ⟨hx, hy⟩ := Description.inside_iff.1 hc
  refine Description.inside_iff.trans ?_
  simp only [Cell.step, Direction.dx, Direction.dy]
  omega

/-- Whether the southern neighbour of a cell is in the grid. -/
theorem inside_south (hc : v.inside c) : v.inside (c.step .south) ↔ 0 < c.y := by
  obtain ⟨hx, hy⟩ := Description.inside_iff.1 hc
  refine Description.inside_iff.trans ?_
  simp only [Cell.step, Direction.dx, Direction.dy]
  omega

/-- What the glyphs of its picture tell of a world. -/
theorem shows_iff (hv : v.Valid) (hw : w.Valid) : v.snapshot.Shows w.snapshot ↔ v.LooksLike w := by
  constructor
  · intro h
    have hwidth : v.width = w.width := h.width
    have hheight : v.height = w.height := h.height
    have hinside (c : Cell) : v.inside c = w.inside c := by rw [inside, inside, hwidth, hheight]
    obtain ⟨hrobot, hcounts⟩ := (glyphs_eq_iff hv.robot_inside).1 h.glyph
    refine ⟨hwidth, hheight, hrobot, ?_, (walls_eq_iff hv hw hinside).2 ⟨?_, ?_⟩, hcounts⟩
    · exact Option.map_injective (fun _ _ => Int.ofNat.inj) h.bag
    · exact fun c hc hnext => divider_eq_iff.1 (h.divider c hc ((inside_east hc).1 hnext))
    · exact fun c hc hnext => floor_eq_iff.1 (h.floor c hc ((inside_south hc).1 hnext))
  · intro h
    have hinside (c : Cell) : v.inside c = w.inside c := by rw [inside, inside, h.width, h.height]
    obtain ⟨heast, hsouth⟩ := (walls_eq_iff hv hw hinside).1 h.walls
    refine ⟨h.width, h.height, congrArg (Option.map Int.ofNat) h.bag, ?_, ?_, ?_⟩
    · exact (glyphs_eq_iff hv.robot_inside).2 ⟨h.robot, h.counts⟩
    · exact fun c hc hlt => divider_eq_iff.2 (heast c hc ((inside_east hc).2 hlt))
    · exact fun c hc hpos => floor_eq_iff.2 (hsouth c hc ((inside_south hc).2 hpos))

/-- Two worlds have one and the same picture exactly when they look alike and the number in their
bag is short enough to be written. -/
theorem drawn_eq_iff (hv : v.Valid) (hw : w.Valid) :
    (∃ picture, v.snapshot.drawn = .ok picture ∧ w.snapshot.drawn = .ok picture) ↔
      v.LooksLike w ∧ v.snapshot.isDrawable = true := by
  have hpicture : v.snapshot.picture = w.snapshot.picture ↔ v.LooksLike w := by
    rw [← shows_iff hv hw, ← Description.pictureLines_eq_iff hv.width_pos hv.height_pos hw.width_pos
      hw.height_pos]
    exact ⟨Description.picture_inj, fun h => by rw [Description.picture, h, Description.picture]⟩
  constructor
  · rintro ⟨picture, hdrawn, hdrawn'⟩
    unfold Description.drawn at hdrawn hdrawn'
    split at hdrawn
    · next hdrawable =>
      split at hdrawn'
      · cases hdrawn
        exact ⟨hpicture.1 (Except.ok.inj hdrawn').symm, hdrawable⟩
      · cases hdrawn'
    · cases hdrawn
  · rintro ⟨halike, hdrawable⟩
    have hdrawable' : w.snapshot.isDrawable = true := by
      rw [← hdrawable, Description.isDrawable, Description.isDrawable, snapshot, snapshot,
        halike.bag]
    refine ⟨v.snapshot.picture, if_pos hdrawable, ?_⟩
    rw [Description.drawn, if_pos hdrawable', hpicture.2 halike]

/-- A world with a wall, and with beepers under the robot. -/
def orchard : World :=
  ⟨2, 2, ⟨⟨1, 0⟩, .north⟩, [⟨⟨0, 0⟩, .east⟩, ⟨⟨1, 0⟩, .west⟩], [(⟨0, 1⟩, 12), (⟨1, 0⟩, 3)], some 7⟩

/-- A world that differs from it under the robot, at the end of the grid, and where there are many
beepers. -/
def otherOrchard : World :=
  ⟨2, 2, ⟨⟨1, 0⟩, .north⟩, [⟨⟨0, 0⟩, .east⟩, ⟨⟨0, 1⟩, .north⟩, ⟨⟨1, 0⟩, .west⟩], [(⟨0, 1⟩, 30)],
    some 7⟩

/-- The two of them have the same picture. -/
theorem drawn_eq_iff_orchard :
    orchard.Valid ∧ otherOrchard.Valid ∧ orchard.LooksLike otherOrchard ∧
    ∃ picture, orchard.snapshot.drawn = .ok picture ∧
      otherOrchard.snapshot.drawn = .ok picture := by
  have horchard : orchard.Valid := ofDescription_valid (d := orchard.snapshot) (by decide)
  have hother : otherOrchard.Valid := ofDescription_valid (d := otherOrchard.snapshot) (by decide)
  have hdrawn : orchard.snapshot.drawn = otherOrchard.snapshot.drawn := by decide +kernel
  have hboth : ∃ picture, orchard.snapshot.drawn = .ok picture ∧
      otherOrchard.snapshot.drawn = .ok picture :=
    ⟨orchard.snapshot.picture, if_pos (by decide +kernel), hdrawn ▸ if_pos (by decide +kernel)⟩
  exact ⟨horchard, hother, ((drawn_eq_iff horchard hother).1 hboth).1, hboth⟩

/-- A world of one cell, and with a bag that holds a number of one digit too many. -/
def brimming : World :=
  ⟨1, 1, .home, [], [], some (10 ^ Text.maxDigits)⟩

/-- It looks like itself, but it has no picture. -/
theorem brimming_undrawn : brimming.Valid ∧ brimming.LooksLike brimming ∧
    brimming.snapshot.drawn = .error .badNumber := by
  have hvalid : brimming.Valid := ofDescription_valid (d := brimming.snapshot) (by decide +kernel)
  have hlong : brimming.snapshot.isDrawable = false := by decide +kernel
  exact ⟨hvalid, ⟨rfl, rfl, rfl, rfl, fun _ _ _ => Iff.rfl, fun _ _ _ => .inl rfl⟩,
    if_neg (Bool.eq_false_iff.1 hlong)⟩

end World

end GridRobot
