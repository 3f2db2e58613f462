import GridRobot.Proofs.Text.Trim
import GridRobot.World.Lines

/-!
# How lines are taken apart

A line of a world file is cut where a comment begins, then at its colon, and where it tells of a point,
at the parentheses, the comma and the ends of the digits. Each of these cuts is found exactly where the
line has the parts that it separates.

## Main definitions

* `Lines.numeral` are the characters of a sign and digits.
* `Lines.Blanks` says that a text is blank all through.

## Main statements

* `Lines.splitEntry_eq_some_iff`: a line is split at the colon after its first word.
* `Lines.splitPoint_eq_some_iff`: a point is split off exactly where there is one.
-/

namespace GridRobot.Lines

open Text

variable {cs rest tail word line : List Char} {a b : Bool × List Char}

/-! ### Comments -/

theorem beforeComment_eq_self (h : ¬ ['/', '/'] <:+: cs) : beforeComment cs = cs := by
  induction cs with
  | nil => rfl
  | cons c rest ih =>
    rw [List.infix_cons_iff, not_or] at h
    rw [beforeComment.eq_3 _ _ (by
      rintro more rfl rfl
      exact h.1 ⟨more, rfl⟩), ih h.2]

theorem beforeComment_prefix_line (line : List Char) : beforeComment line <+: line := by
  induction line using beforeComment.induct with
  | case1 => exact List.prefix_rfl
  | case2 rest => exact List.nil_prefix
  | case3 c rest hcomment ih =>
    rw [beforeComment.eq_3 _ _ hcomment]
    exact List.cons_prefix_cons.2 ⟨rfl, ih⟩

theorem content_infix_line (line : List Char) : content line <:+: line :=
  (Text.trim_infix_text _).trans (beforeComment_prefix_line line).isInfix

/-! ### Blanks -/

/-- A text is blank all through. -/
def Blanks (cs : List Char) : Prop :=
  ∀ c ∈ cs, isBlank c = true

theorem trimStart_append_blanks (h : Blanks cs) : trimStart (cs ++ rest) = trimStart rest := by
  rw [trimStart, List.dropWhile_append, List.dropWhile_eq_nil_iff.2 h]
  rfl

/-- What remains of a text comes after blanks. -/
theorem exists_trimStart (cs : List Char) : ∃ blanks, Blanks blanks ∧ cs = blanks ++ trimStart cs :=
  ⟨cs.takeWhile isBlank, fun _ hc => List.mem_takeWhile_imp hc,
    (List.takeWhile_append_dropWhile).symm⟩

theorem trimStart_eq_cons_iff {c : Char} (hc : isBlank c = false) : trimStart cs = c :: rest ↔
    ∃ blanks, Blanks blanks ∧ cs = blanks ++ c :: rest := by
  constructor
  · intro h
    obtain ⟨blanks, hblanks, hcs⟩ := exists_trimStart cs
    exact ⟨blanks, hblanks, by rwa [h] at hcs⟩
  · rintro ⟨blanks, hblanks, rfl⟩
    rw [trimStart_append_blanks hblanks, trimStart_cons hc]

/-! ### Words -/

theorem isBlank_of_isLetter {c : Char} (h : isLetter c = true) : isBlank c = false := by
  have hrange := toNat_of_isAlpha h
  simp only [isBlank, Bool.or_eq_false_iff, Bool.and_eq_false_iff, decide_eq_false_iff_not,
    beq_eq_false_iff_ne]
  omega

/-- A word ends where blanks or a colon begin. -/
theorem takeWhile_word {after : List Char} (hword : ∀ c ∈ word, isLetter c = true)
    (hblanks : Blanks cs) : (word ++ (cs ++ ':' :: after)).takeWhile isLetter = word := by
  have hstop : (cs ++ ':' :: after).takeWhile isLetter = [] := by
    cases cs with
    | nil => exact List.takeWhile_cons_of_neg (by decide)
    | cons c more =>
      refine List.takeWhile_cons_of_neg fun hletter => ?_
      have hblank := hblanks c (by simp)
      rw [isBlank_of_isLetter hletter] at hblank
      cases hblank
  rw [List.takeWhile_append_of_pos hword, hstop, List.append_nil]

/-- A line is split at the colon after its first word. -/
theorem splitEntry_eq_some_iff : splitEntry line = some (word, rest) ↔
    ∃ blanks after, line = word ++ (blanks ++ ':' :: after) ∧ (∀ c ∈ word, isLetter c = true) ∧
      word ≠ [] ∧ Blanks blanks ∧ rest = trim after := by
  constructor
  · intro h
    have hline : line = line.takeWhile isLetter ++ line.drop (line.takeWhile isLetter).length := by
      have hword : line.takeWhile isLetter <+: line := List.takeWhile_prefix isLetter
      have htake := List.prefix_iff_eq_take.1 hword
      conv_lhs => rw [← List.take_append_drop (line.takeWhile isLetter).length line, ← htake]
    unfold splitEntry at h
    simp only at h
    split at h
    · next after hafter =>
      split at h
      · cases h
      · next hne =>
        obtain ⟨rfl, rfl⟩ := Prod.mk.inj (Option.some.inj h)
        obtain ⟨blanks, hblanks, hdrop⟩ := (trimStart_eq_cons_iff (by decide)).1 hafter
        refine ⟨blanks, after, ?_, fun c hc => List.mem_takeWhile_imp hc, by simpa using hne, hblanks,
          rfl⟩
        conv_lhs => rw [hline, hdrop]
    · cases h
  · rintro ⟨blanks, after, rfl, hword, hne, hblanks, rfl⟩
    have hcolon : trimStart (blanks ++ ':' :: after) = ':' :: after :=
      (trimStart_eq_cons_iff (by decide)).2 ⟨blanks, hblanks, rfl⟩
    simp [splitEntry, takeWhile_word hword hblanks, hcolon, hne]

theorem splitEntry_rest (h : splitEntry line = some (word, rest)) :
    rest <:+: line ∧ trim rest = rest := by
  obtain ⟨blanks, after, rfl, -, -, -, rfl⟩ := splitEntry_eq_some_iff.1 h
  have hafter : after <:+: word ++ (blanks ++ ':' :: after) :=
    ⟨word ++ (blanks ++ [':']), [], by simp⟩
  exact ⟨(trim_infix_text after).trans hafter, trim_trim after⟩

/-! ### Points -/

/-- The characters of a sign and digits. -/
def numeral (written : Bool × List Char) : List Char :=
  if written.1 then '-' :: written.2 else written.2

/-- A row of digits, with a sign or without. -/
structure IsNumeral (written : Bool × List Char) : Prop where
  digits : ∀ c ∈ written.2, isDigit c = true
  ne_nil : written.2 ≠ []

theorem trimStart_numeral (h : IsNumeral a) : trimStart (numeral a ++ rest) = numeral a ++ rest := by
  obtain ⟨negative, digits⟩ := a
  obtain ⟨d, ds, rfl⟩ := List.exists_cons_of_ne_nil h.ne_nil
  have hd := isBlank_of_isDigit (h.digits d (by simp))
  cases negative with
  | true => exact trimStart_cons (by decide)
  | false => exact trimStart_cons hd

theorem splitInteger_numeral (h : IsNumeral a) (hrest : ∀ c ∈ rest.head?, isDigit c = false) :
    splitInteger (numeral a ++ rest) = some (a, rest) := by
  obtain ⟨negative, digits⟩ := a
  have hstop : rest.takeWhile isDigit = [] ∧ rest.dropWhile isDigit = rest := by
    cases rest with
    | nil => exact ⟨rfl, rfl⟩
    | cons c rest => simp [hrest c (by simp)]
  have htake : (digits ++ rest).takeWhile isDigit = digits := by
    rw [List.takeWhile_append_of_pos h.digits, hstop.1, List.append_nil]
  have hdrop : (digits ++ rest).dropWhile isDigit = rest := by
    rw [List.dropWhile_append_of_pos h.digits, hstop.2]
  have hne : digits.isEmpty = false := by simpa using h.ne_nil
  cases negative with
  | true => simp [splitInteger, numeral, htake, hdrop, hne]
  | false =>
    -- the first digit is not taken for a sign
    obtain ⟨d, ds, rfl⟩ := List.exists_cons_of_ne_nil h.ne_nil
    have hd : d ≠ '-' := by
      rintro rfl
      exact absurd (h.digits '-' (by simp)) (by decide)
    simp only [numeral, Bool.false_eq_true, if_false, splitInteger]
    split
    · next hcons => simp_all
    · next hcons => simp_all

theorem splitInteger_eq_some (h : splitInteger cs = some (a, rest)) :
    IsNumeral a ∧ cs = numeral a ++ rest := by
  have hdigits {negative : Bool} {cs : List Char}
      (h : (if (cs.takeWhile isDigit).isEmpty then none
        else some ((negative, cs.takeWhile isDigit), cs.dropWhile isDigit)) = some (a, rest)) :
      IsNumeral a ∧ a.1 = negative ∧ cs = a.2 ++ rest := by
    split at h
    · cases h
    · next hne =>
      obtain ⟨rfl, rfl⟩ := Prod.mk.inj (Option.some.inj h)
      exact ⟨⟨fun c hc => List.mem_takeWhile_imp hc, by simpa using hne⟩, rfl,
        List.takeWhile_append_dropWhile.symm⟩
  unfold splitInteger at h
  split at h
  next negative after hsign =>
  obtain ⟨hnumeral, rfl, rfl⟩ := hdigits h
  refine ⟨hnumeral, ?_⟩
  split at hsign
  · obtain ⟨hnegative, rfl⟩ := Prod.mk.inj hsign
    rw [numeral, ← hnegative, if_pos rfl]
    rfl
  · obtain ⟨hnegative, rfl⟩ := Prod.mk.inj hsign
    rw [numeral, ← hnegative, if_neg nofun]

/-- Digits end where blanks or a mark begin. -/
theorem not_isDigit_of_head? {c : Char} (hblanks : Blanks cs) (hc : isDigit c = false) :
    ∀ d ∈ (cs ++ c :: rest).head?, isDigit d = false := by
  cases cs with
  | nil => simpa using hc
  | cons d more =>
    have hd : isBlank d = true := hblanks d (by simp)
    have hdigit : isDigit d = false := by
      by_contra hdigit
      rw [isBlank_of_isDigit (by simpa using hdigit)] at hd
      cases hd
    simpa using hdigit

/-- An integer with blanks around it, and a mark after that. -/
theorem splitInteger_blanks {before after : List Char} (c : Char) (rest : List Char)
    (ha : IsNumeral a) (hbefore : Blanks before) (hafter : Blanks after) (hc : isDigit c = false)
    (hblank : isBlank c = false) : ∃ left,
      splitInteger (trimStart (before ++ numeral a ++ after ++ c :: rest)) = some (a, left) ∧
      trimStart left = c :: rest := by
  refine ⟨after ++ c :: rest, ?_, (trimStart_eq_cons_iff hblank).2 ⟨after, hafter, rfl⟩⟩
  rw [List.append_assoc, List.append_assoc, trimStart_append_blanks hbefore, trimStart_numeral ha,
    splitInteger_numeral ha (not_isDigit_of_head? hafter hc)]

/-- A point is split off exactly where there is one. -/
theorem splitPoint_eq_some_iff : splitPoint cs = some (a, b, tail) ↔
    ∃ b₁ b₂ b₃ b₄ after, IsNumeral a ∧ IsNumeral b ∧ Blanks b₁ ∧ Blanks b₂ ∧ Blanks b₃ ∧ Blanks b₄ ∧
      cs = '(' :: (b₁ ++ numeral a ++ b₂ ++ ',' :: (b₃ ++ numeral b ++ b₄ ++ ')' :: after)) ∧
      tail = trim after := by
  constructor
  · intro h
    unfold splitPoint at h
    split at h
    · next inner =>
      obtain ⟨⟨x, more⟩, hx, h⟩ := Option.bind_eq_some_iff.1 h
      simp only at h
      split at h
      · next inner' hcomma =>
        obtain ⟨⟨y, last⟩, hy, h⟩ := Option.bind_eq_some_iff.1 h
        simp only at h
        split at h
        · next after hclose =>
          obtain ⟨rfl, rfl, rfl⟩ : x = a ∧ y = b ∧ trim after = tail := by simpa using h
          obtain ⟨hnumeral, hinner⟩ := splitInteger_eq_some hx
          obtain ⟨hnumeral', hinner'⟩ := splitInteger_eq_some hy
          obtain ⟨b₁, h₁, hfirst⟩ := exists_trimStart inner
          obtain ⟨b₂, h₂, rfl⟩ := (trimStart_eq_cons_iff (by decide)).1 hcomma
          obtain ⟨b₃, h₃, hsecond⟩ := exists_trimStart inner'
          obtain ⟨b₄, h₄, rfl⟩ := (trimStart_eq_cons_iff (by decide)).1 hclose
          refine ⟨b₁, b₂, b₃, b₄, after, hnumeral, hnumeral', h₁, h₂, h₃, h₄, ?_, rfl⟩
          rw [hfirst, hinner]
          conv_lhs => rw [hsecond, hinner']
          simp only [List.append_assoc]
        · cases h
      · cases h
    · cases h
  · rintro ⟨b₁, b₂, b₃, b₄, after, ha, hb, h₁, h₂, h₃, h₄, rfl, rfl⟩
    obtain ⟨left, hx, hcomma⟩ := splitInteger_blanks ','
      (b₃ ++ numeral b ++ b₄ ++ ')' :: after) ha h₁ h₂ (by decide) (by decide)
    obtain ⟨left', hy, hclose⟩ := splitInteger_blanks ')' after hb h₃ h₄ (by decide) (by decide)
    simp only [splitPoint, hx, Option.bind_eq_bind, Option.bind_some, hcomma, hy, hclose]

theorem digits_suffix_numeral (a : Bool × List Char) : a.2 <:+ numeral a := by
  unfold numeral
  split
  · exact List.suffix_cons _ _
  · exact List.suffix_rfl

/-- What is split off a text was in it. -/
theorem splitPoint_parts (h : splitPoint cs = some (a, b, tail)) :
    (IsNumeral a ∧ a.2 <:+: cs) ∧ (IsNumeral b ∧ b.2 <:+: cs) ∧ tail <:+: cs ∧ trim tail = tail := by
  obtain ⟨b₁, b₂, b₃, b₄, after, ha, hb, -, -, -, -, rfl, rfl⟩ := splitPoint_eq_some_iff.1 h
  refine ⟨⟨ha, (digits_suffix_numeral a).isInfix.trans ?_⟩,
    ⟨hb, (digits_suffix_numeral b).isInfix.trans ?_⟩, (trim_infix_text after).trans ?_, trim_trim after⟩
  · exact ⟨'(' :: b₁, b₂ ++ ',' :: (b₃ ++ numeral b ++ b₄ ++ ')' :: after), by simp⟩
  · exact ⟨'(' :: (b₁ ++ numeral a ++ b₂ ++ ',' :: b₃), b₄ ++ ')' :: after, by simp⟩
  · exact ⟨'(' :: (b₁ ++ numeral a ++ b₂ ++ ',' :: (b₃ ++ numeral b ++ b₄ ++ [')'])), [], by simp⟩

end GridRobot.Lines
