import GridRobot.Proofs.Text.Numeral
import GridRobot.Text.Blank
import Mathlib.Data.List.TakeWhile

/-!
# Blanks at the ends of texts, and lines

## Main statements

* `Text.trim_append`: what is blank at the end of a text is not part of what remains of it.
* `Text.trim_trim`: nothing is left to be trimmed.
* `Text.lines_intercalate`: lines that are joined by line feeds are the lines of the text.
-/

namespace GridRobot.Text

variable {a b cs pre post line : List Char} {c : Char}

/-! ### Beginnings -/

theorem trimStart_cons (h : isBlank c = false) : trimStart (c :: cs) = c :: cs :=
  List.dropWhile_cons_of_neg (by simp [h])

theorem trimStart_cons_blank (h : isBlank c = true) : trimStart (c :: cs) = trimStart cs :=
  List.dropWhile_cons_of_pos h

theorem trimStart_trimStart : trimStart (trimStart cs) = trimStart cs := by
  cases h : trimStart cs with
  | nil => rfl
  | cons c rest =>
    exact trimStart_cons (isBlank_of_head?_trimStart (by rw [h]; rfl))

/-! ### Ends -/

theorem trimEnd_append (h : ∀ c ∈ post, isBlank c = true) : trimEnd (cs ++ post) = trimEnd cs := by
  have hpost : post.reverse.dropWhile isBlank = [] :=
    List.dropWhile_eq_nil_iff.2 fun c hc => h c (List.mem_reverse.1 hc)
  rw [trimEnd, List.reverse_append, List.dropWhile_append, hpost]
  rfl

theorem trimEnd_append_cons (h : isBlank c = false) :
    trimEnd (a ++ c :: b) = a ++ c :: trimEnd b := by
  have hc : (c :: a.reverse).dropWhile isBlank = c :: a.reverse :=
    List.dropWhile_cons_of_neg (by simp [h])
  rw [trimEnd, List.reverse_append, List.reverse_cons, List.append_assoc, List.singleton_append,
    List.dropWhile_append, hc]
  split
  · next hempty =>
    have hnil : trimEnd b = [] := by
      rw [trimEnd, List.isEmpty_iff.1 hempty]
      rfl
    simp [hnil]
  · simp [trimEnd]

theorem trimEnd_cons (h : isBlank c = false) : trimEnd (c :: b) = c :: trimEnd b :=
  trimEnd_append_cons (a := []) h

/-- A text is what remains of it, and blanks. -/
theorem exists_trimEnd (cs : List Char) :
    ∃ post, cs = trimEnd cs ++ post ∧ ∀ c ∈ post, isBlank c = true := by
  refine ⟨(cs.reverse.takeWhile isBlank).reverse, ?_, ?_⟩
  · rw [trimEnd, ← List.reverse_append, List.takeWhile_append_dropWhile, List.reverse_reverse]
  · intro c hc
    exact List.mem_takeWhile_imp (List.mem_reverse.1 hc)

/-! ### Both -/

/-- What is blank at the end of a text is not part of what remains of it. -/
theorem trim_append (h : ∀ c ∈ post, isBlank c = true) : trim (cs ++ post) = trim cs := by
  have hpost : trimStart post = [] := List.dropWhile_eq_nil_iff.2 h
  rw [trim, trim, trimStart, List.dropWhile_append]
  split
  · next hempty =>
    have hnil : trimStart cs = [] := List.isEmpty_iff.1 hempty
    rw [← trimStart, hpost, hnil]
  · exact trimEnd_append h

theorem trim_trimEnd (cs : List Char) : trim (trimEnd cs) = trim cs := by
  obtain ⟨post, hcs, hpost⟩ := exists_trimEnd cs
  conv_rhs => rw [hcs, trim_append hpost]

/-- Nothing is left to be trimmed. -/
theorem trim_trim (cs : List Char) : trim (trim cs) = trim cs :=
  calc trim (trim cs) = trim (trimStart cs) := trim_trimEnd (trimStart cs)
    _ = trim cs := by rw [trim, trimStart_trimStart, trim]

theorem trim_cons (h : isBlank c = false) : trim (c :: cs) = c :: trimEnd cs := by
  rw [trim, trimStart_cons h, trimEnd_cons h]

theorem trim_cons_blank (h : isBlank c = true) : trim (c :: cs) = trim cs := by
  rw [trim, trimStart_cons_blank h, trim]

theorem isBlank_of_head?_trim (h : (trim cs).head? = some c) : isBlank c = false := by
  rw [trim] at h
  cases hstart : trimStart cs with
  | nil =>
    rw [hstart] at h
    cases h
  | cons d rest =>
    have hd : isBlank d = false := isBlank_of_head?_trimStart (by rw [hstart]; rfl)
    rw [hstart, trimEnd_cons hd] at h
    rwa [← Option.some.inj h]

theorem isBlank_of_head?_reverse_trim (h : (trim cs).reverse.head? = some c) :
    isBlank c = false := by
  rw [trim, trimEnd, List.reverse_reverse] at h
  exact isBlank_of_head?_trimStart h

theorem trim_infix_text (cs : List Char) : trim cs <:+: cs := by
  obtain ⟨post, hpost, -⟩ := exists_trimEnd (trimStart cs)
  have hbegin : trim cs <+: trimStart cs := ⟨post, hpost.symm⟩
  exact hbegin.isInfix.trans (List.dropWhile_suffix _).isInfix

theorem trim_eq_self (h : ∀ c ∈ cs, isBlank c = false) : trim cs = cs := by
  rw [trim, trimStart, dropWhile_eq_self h, trimEnd,
    dropWhile_eq_self fun c hc => h c (List.mem_reverse.1 hc), List.reverse_reverse]

/-! ### Lines -/

theorem linesFrom_append (seen rest : List Char) (h : ∀ c ∈ cs, isLineBreak c = false) :
    linesFrom seen (cs ++ rest) = linesFrom (cs.reverse ++ seen) rest := by
  induction cs generalizing seen with
  | nil => rfl
  | cons c more ih =>
    have hc : isLineBreak c = false := h c (by simp)
    have hreturn : c ≠ '\r' := by
      rintro rfl
      exact absurd hc (by decide)
    rw [List.cons_append, linesFrom.eq_3 _ _ _ (by simp [hreturn]), hc, if_neg (by decide),
      ih _ fun d hd => h d (by simp [hd])]
    simp

theorem infix_of_mem_linesFrom (seen : List Char) (h : line ∈ linesFrom seen cs) :
    line <:+: seen.reverse ++ cs := by
  induction seen, cs using linesFrom.induct with
  | case1 seen hempty =>
    rw [linesFrom, if_pos hempty] at h
    cases h
  | case2 seen hempty =>
    rw [linesFrom, if_neg hempty] at h
    obtain rfl := List.mem_singleton.1 h
    exact (List.prefix_append _ _).isInfix
  | case3 seen rest ih =>
    rw [linesFrom] at h
    rcases List.mem_cons.1 h with rfl | h
    · exact (List.prefix_append _ _).isInfix
    · exact (ih h).trans ⟨seen.reverse ++ ['\r', '\n'], [], by simp⟩
  | case4 seen c rest hreturn hbreak ih =>
    rw [linesFrom.eq_3 _ _ _ hreturn, if_pos hbreak] at h
    rcases List.mem_cons.1 h with rfl | h
    · exact (List.prefix_append _ _).isInfix
    · exact (ih h).trans ⟨seen.reverse ++ [c], [], by simp⟩
  | case5 seen c rest hreturn hbreak ih =>
    rw [linesFrom.eq_3 _ _ _ hreturn, if_neg hbreak] at h
    simpa using ih h

/-- A line is cut out of its text. -/
theorem infix_of_mem_lines (h : line ∈ lines cs) : line <:+: cs :=
  infix_of_mem_linesFrom [] h

theorem lines_cons_newline {rest : List Char} (h : ∀ c ∈ cs, isLineBreak c = false) :
    lines (cs ++ '\n' :: rest) = cs :: lines rest := by
  rw [lines, linesFrom_append _ _ h, linesFrom.eq_3 _ _ _ (by simp), if_pos (by decide)]
  simp [lines]

theorem lines_single (h : ∀ c ∈ cs, isLineBreak c = false) (hne : cs ≠ []) : lines cs = [cs] := by
  have happend := linesFrom_append [] [] h
  rw [List.append_nil, List.append_nil] at happend
  rw [lines, happend, linesFrom, List.isEmpty_reverse, if_neg (by simpa using hne),
    List.reverse_reverse]

/-- Lines that are joined by line feeds are the lines of the text. -/
theorem lines_intercalate {ls : List (List Char)} (h : ∀ l ∈ ls, ∀ c ∈ l, isLineBreak c = false)
    (hne : ∀ l ∈ ls, l ≠ []) : lines (['\n'].intercalate ls) = ls := by
  induction ls with
  | nil => rfl
  | cons l rest ih =>
    have hl := h l (by simp)
    cases rest with
    | nil => simpa using lines_single hl (hne l (by simp))
    | cons next rest =>
      rw [List.intercalate_cons_cons, List.append_assoc, List.singleton_append,
        lines_cons_newline hl, ih (fun m hm => h m (by simp [hm])) fun m hm => hne m (by simp [hm])]

end GridRobot.Text
