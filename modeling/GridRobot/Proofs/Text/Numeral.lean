import GridRobot.Text.Integer
import Mathlib.Data.Nat.Digits.Defs

/-!
# Integers in decimal digits

An integer that is short enough to be written is read back as the same integer, and what is written
has no blanks in it.

## Main statements

* `Text.readDigits_toDigits`: a number is what its digits denote.
* `Text.readInteger_toString`: an integer is what is read where it is written.
-/

namespace GridRobot.Text

variable {c : Char} {cs : List Char} {n : Nat} {z : Int}

/-! ### Letters and digits of the first script -/

theorem toNat_of_isAlpha (h : c.isAlpha = true) :
    (65 ≤ c.toNat ∧ c.toNat ≤ 90) ∨ (97 ≤ c.toNat ∧ c.toNat ≤ 122) := by
  have hcase : (c.isUpper || c.isLower) = true := h
  rcases Bool.or_eq_true_iff.1 hcase with hupper | hlower
  · obtain ⟨hlow, hhigh⟩ := of_decide_eq_true hupper
    exact .inl ⟨UInt32.le_iff_toNat_le.1 hlow, UInt32.le_iff_toNat_le.1 hhigh⟩
  · obtain ⟨hlow, hhigh⟩ := Bool.and_eq_true_iff.1 hlower
    exact .inr ⟨UInt32.le_iff_toNat_le.1 (of_decide_eq_true hlow),
      UInt32.le_iff_toNat_le.1 (of_decide_eq_true hhigh)⟩

theorem toNat_of_isDigit (h : c.isDigit = true) : 48 ≤ c.toNat ∧ c.toNat ≤ 57 := by
  simp only [Char.isDigit, Bool.and_eq_true, decide_eq_true_eq, ge_iff_le, UInt32.le_iff_toNat_le] at h
  exact h

theorem digit?_of_isDigit (h : c.isDigit = true) : digit? c = some (c.toNat - 48) := by
  obtain ⟨hlow, hhigh⟩ := toNat_of_isDigit h
  have hfirst : (decide (48 ≤ c.toNat) && decide (c.toNat < 48 + 10)) = true := by
    simp only [Bool.and_eq_true, decide_eq_true_eq]
    omega
  simp only [digit?, zeroDigits, List.find?_cons, hfirst, Option.map_some]

theorem isDigit_of_isDigit (h : c.isDigit = true) : isDigit c = true := by
  simp [isDigit, digit?_of_isDigit h]

/-- A digit of any script is among the ten that begin with the zero of the script. -/
theorem exists_zeroDigit (h : isDigit c = true) :
    ∃ z ∈ zeroDigits, z ≤ c.toNat ∧ c.toNat < z + 10 := by
  obtain ⟨n, hn⟩ := Option.isSome_iff_exists.1 h
  obtain ⟨z, hfind, -⟩ := Option.map_eq_some_iff.1 hn
  have hrange := List.find?_some hfind
  simp only [Bool.and_eq_true, decide_eq_true_eq] at hrange
  exact ⟨z, List.mem_of_find?_eq_some hfind, hrange⟩

/-- A digit of any script is not blank: no script has its digits among the blanks. -/
theorem isBlank_of_isDigit (h : isDigit c = true) : isBlank c = false := by
  have hgaps : ∀ z ∈ zeroDigits, (0x20 < z ∧ z + 10 ≤ 0x85) ∨ (0xA0 < z ∧ z + 10 ≤ 0x1680) ∨
      (0x1680 < z ∧ z + 10 ≤ 0x2000) ∨ 0x3000 < z := by decide
  obtain ⟨z, hmem, hrange⟩ := exists_zeroDigit h
  have hz := hgaps z hmem
  simp only [isBlank, Bool.or_eq_false_iff, Bool.and_eq_false_iff, decide_eq_false_iff_not,
    beq_eq_false_iff_ne]
  omega

theorem digitsValue_of_isDigit (h : ∀ c ∈ cs, c.isDigit = true) (start : Nat) :
    cs.foldl (fun n c => 10 * n + (digit? c).getD 0) start = Nat.ofDigitChars 10 cs start := by
  induction cs generalizing start with
  | nil => simp
  | cons c rest ih =>
    have hc := digit?_of_isDigit (h c (by simp))
    rw [List.foldl_cons, Nat.ofDigitChars_cons, ih (fun d hd => h d (by simp [hd])), hc]
    rfl

theorem isDigit_toDigits (h : c ∈ Nat.toDigits 10 n) : c.isDigit = true :=
  Nat.isDigit_of_mem_toDigits (by decide) (by decide) h

theorem length_toDigits_le_iff {k : Nat} (hk : 0 < k) :
    (Nat.toDigits 10 n).length ≤ k ↔ n < Nat.pow 10 k :=
  Nat.length_toDigits_le_iff (by decide) hk

theorem isWritable_iff : isWritable z = true ↔ z.natAbs < Nat.pow 10 maxDigits := by
  rw [isWritable, decide_eq_true_eq]

theorem isWritable_zero : isWritable 0 = true := by
  have hpos (k : Nat) : 0 < Nat.pow 10 k := Nat.pow_pos (by decide)
  rw [isWritable_iff, Int.natAbs_zero]
  exact hpos maxDigits

/-- A number is what its digits denote. -/
theorem readDigits_toDigits (h : n < Nat.pow 10 maxDigits) :
    readDigits (Nat.toDigits 10 n) = .ok n := by
  have hlength : (Nat.toDigits 10 n).length ≤ maxDigits :=
    (length_toDigits_le_iff (by simp only [maxDigits]; omega)).2 h
  rw [readDigits, if_pos hlength, digitsValue, digitsValue_of_isDigit fun c hc => isDigit_toDigits hc,
    Nat.ofDigitChars_ten_toDigits]

/-! ### Signs and blanks -/

/-- The digits of an integer, after a minus sign where it is negative. -/
theorem toList_toString (z : Int) :
    (toString z).toList =
      if z < 0 then '-' :: Nat.toDigits 10 z.natAbs else Nat.toDigits 10 z.natAbs := by
  cases z with
  | ofNat n => simp [Int.toString_eq_repr, Int.repr]
  | negSucc n => simp [Int.toString_eq_repr, Int.repr, Int.negSucc_lt_zero]

theorem groupedDigits?_of_isDigit (h : ∀ c ∈ cs, c.isDigit = true) (hne : cs ≠ []) :
    groupedDigits? cs = some cs := by
  induction cs with
  | nil => exact absurd rfl hne
  | cons c rest ih =>
    have hc : isDigit c = true := isDigit_of_isDigit (h c (by simp))
    have hrest : ∀ d ∈ rest, d.isDigit = true := fun d hd => h d (by simp [hd])
    cases rest with
    | nil => simp [groupedDigits?, hc]
    | cons d rest =>
      have hd : d ≠ '_' := by
        rintro rfl
        exact absurd (hrest '_' (by simp)) (by decide)
      rw [groupedDigits?.eq_4 _ _ (by simp) (by simp [hd]), if_pos hc, ih hrest (by simp)]
      rfl

/-- What is written has no blanks in it. -/
theorem isBlank_toString {c : Char} (h : c ∈ (toString z).toList) : isBlank c = false := by
  rw [toList_toString] at h
  split at h
  · rcases List.mem_cons.1 h with rfl | h
    · decide
    · exact isBlank_of_isDigit (isDigit_of_isDigit (isDigit_toDigits h))
  · exact isBlank_of_isDigit (isDigit_of_isDigit (isDigit_toDigits h))

theorem toString_ne_nil (z : Int) : (toString z).toList ≠ [] := by
  rw [toList_toString]
  split
  · simp
  · exact Nat.toDigits_ne_nil

theorem dropWhile_of_head? {p : Char → Bool} (h : ∀ c, cs.head? = some c → p c = false) :
    cs.dropWhile p = cs := by
  cases cs with
  | nil => rfl
  | cons c rest => rw [List.dropWhile_cons_of_neg (by simp [h c rfl])]

theorem dropWhile_eq_self {p : Char → Bool} (h : ∀ c ∈ cs, p c = false) : cs.dropWhile p = cs :=
  dropWhile_of_head? fun c hc => h c (List.mem_of_head? hc)

/-- An integer is what is read where it is written. -/
theorem readInteger_toString (h : isWritable z = true) : readInteger (toString z).toList = .ok z := by
  have hpadding : ∀ c ∈ (toString z).toList, isPadding c = false := by
    intro c hc
    simp [isPadding, isBlank_toString hc]
  have htrimmed : readInteger (toString z).toList = readTrimmed (toString z).toList := by
    rw [readInteger, dropWhile_eq_self hpadding,
      dropWhile_eq_self (fun c hc => hpadding c (List.mem_reverse.1 hc)), List.reverse_reverse]
  have hgrouped : groupedDigits? (Nat.toDigits 10 z.natAbs) = some (Nat.toDigits 10 z.natAbs) :=
    groupedDigits?_of_isDigit (fun c hc => isDigit_toDigits hc) Nat.toDigits_ne_nil
  have hread := readDigits_toDigits (isWritable_iff.1 h)
  rw [htrimmed, toList_toString]
  by_cases hneg : z < 0
  · rw [if_pos hneg]
    simp only [readTrimmed, hgrouped, hread]
    show Except.ok (-(z.natAbs : Int)) = Except.ok z
    rw [Int.ofNat_natAbs_of_nonpos hneg.le, neg_neg]
  · rw [if_neg hneg]
    obtain ⟨d, rest, hdigits⟩ :=
      List.exists_cons_of_ne_nil (Nat.toDigits_ne_nil (n := z.natAbs) (b := 10))
    have hd : d.isDigit = true := isDigit_toDigits (n := z.natAbs) (by simp [hdigits])
    have hminus : d ≠ '-' := by
      rintro rfl
      exact absurd hd (by decide)
    have hplus : d ≠ '+' := by
      rintro rfl
      exact absurd hd (by decide)
    -- without a sign the first character is a digit, so the whole text is read as digits
    rw [hdigits] at hgrouped hread ⊢
    simp only [readTrimmed]
    split
    · simp_all
    · simp_all
    · rw [hgrouped]
      simp only [hread]
      show Except.ok (z.natAbs : Int) = Except.ok z
      rw [Int.natAbs_of_nonneg (not_lt.1 hneg)]

end GridRobot.Text
