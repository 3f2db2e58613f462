import GridRobot.Proofs.Reading
import GridRobot.Proofs.Text.Trim

/-!
# Which texts are integers

An integer is written with a sign or without one, in digits of any script, and single underscores may
stand between two digits. As long as the number has no more digits than are read, these texts are read
and no others.

## Main definitions

* `Text.Grouped` are the digits of a text with underscores.
* `Text.Denotes` says which integer a text denotes.
* `Text.Short` says that no number in a text has too many digits.

## Main statements

* `Text.groupedDigits?_eq_some_iff`: the digits are found exactly where they are grouped properly.
* `Text.readInteger_trim_eq_ok_iff`: an integer is read exactly where a text denotes it.
-/

namespace GridRobot.Text

variable {c : Char} {a b cs ds run text : List Char} {z : Int}

/-- Digits of which some have an underscore after them, but not the last one. -/
inductive Grouped : List Char → List Char → Prop where
  | last {c : Char} (hc : isDigit c = true) : Grouped [c] [c]
  | next {c : Char} {cs ds : List Char} (hc : isDigit c = true) (h : Grouped cs ds) :
      Grouped (c :: cs) (c :: ds)
  | underscore {c : Char} {cs ds : List Char} (hc : isDigit c = true) (h : Grouped cs ds) :
      Grouped (c :: '_' :: cs) (c :: ds)

/-- The integer that a text denotes. -/
inductive Denotes : List Char → Int → Prop where
  | plain {cs ds : List Char} (h : Grouped cs ds) : Denotes cs (digitsValue ds)
  | plus {cs ds : List Char} (h : Grouped cs ds) : Denotes ('+' :: cs) (digitsValue ds)
  | minus {cs ds : List Char} (h : Grouped cs ds) : Denotes ('-' :: cs) (-(digitsValue ds : Int))

/-! ### Grouped digits -/

theorem isDigit_underscore : isDigit '_' = false := by decide

theorem Grouped.exists_cons (h : Grouped cs ds) : ∃ c rest, cs = c :: rest ∧ isDigit c = true := by
  cases h with
  | last hc => exact ⟨_, _, rfl, hc⟩
  | next hc _ => exact ⟨_, _, rfl, hc⟩
  | underscore hc _ => exact ⟨_, _, rfl, hc⟩

/-- Nothing but digits and underscores is in the text, and the digits are those that it has. -/
theorem Grouped.digits (h : Grouped cs ds) :
    ds = cs.filter isDigit ∧ ∀ c ∈ cs, isDigit c = true ∨ c = '_' := by
  induction h with
  | last hc => simp [hc]
  | next hc _ ih =>
    obtain ⟨rfl, hall⟩ := ih
    simpa [hc] using hall
  | underscore hc _ ih =>
    obtain ⟨rfl, hall⟩ := ih
    simpa [hc, isDigit_underscore] using hall

theorem groupedDigits?_cons (hne : cs ≠ []) (hhead : ∀ rest, cs ≠ '_' :: rest)
    (hc : isDigit c = true) : groupedDigits? (c :: cs) = (groupedDigits? cs).map (c :: ·) := by
  rw [groupedDigits?.eq_4 _ _ hne hhead, if_pos hc]

theorem Grouped.groupedDigits? (h : Grouped cs ds) : groupedDigits? cs = some ds := by
  induction h with
  | last hc => simp [Text.groupedDigits?, hc]
  | @next c cs ds hc hmore ih =>
    obtain ⟨d, rest, rfl, hd⟩ := hmore.exists_cons
    have hhead : ∀ rest', d :: rest ≠ '_' :: rest' := by
      rintro rest' heq
      obtain ⟨rfl, -⟩ := List.cons.inj heq
      exact absurd hd (by decide)
    rw [groupedDigits?_cons (List.cons_ne_nil _ _) hhead hc, ih]
    rfl
  | underscore hc _ ih =>
    rw [Text.groupedDigits?, if_pos hc, ih]
    rfl

/-- The digits are found exactly where they are grouped properly. -/
theorem groupedDigits?_eq_some_iff : Text.groupedDigits? cs = some ds ↔ Grouped cs ds := by
  refine ⟨fun h => ?_, Grouped.groupedDigits?⟩
  induction cs using Text.groupedDigits?.induct generalizing ds with
  | case1 => cases h
  | case2 c hc =>
    rw [Text.groupedDigits?, if_pos hc] at h
    obtain rfl := Option.some.inj h
    exact .last hc
  | case3 c hc =>
    rw [Text.groupedDigits?, if_neg hc] at h
    cases h
  | case4 c rest hc ih =>
    rw [Text.groupedDigits?, if_pos hc] at h
    obtain ⟨more, hmore, rfl⟩ := Option.map_eq_some_iff.1 h
    exact .underscore hc (ih hmore)
  | case5 c rest hc =>
    rw [Text.groupedDigits?, if_neg hc] at h
    cases h
  | case6 c rest hne hhead hc ih =>
    rw [groupedDigits?_cons hne hhead hc] at h
    obtain ⟨more, hmore, rfl⟩ := Option.map_eq_some_iff.1 h
    exact .next hc (ih hmore)
  | case7 c rest hne hhead hc =>
    rw [Text.groupedDigits?.eq_4 _ _ hne hhead, if_neg hc] at h
    cases h

/-! ### Numbers that are short enough -/

/-- No number in a text has more digits than are read. -/
def Short (text : List Char) : Prop :=
  ∀ run, run <:+: text → (∀ c ∈ run, isDigit c = true ∨ c = '_') →
    (run.filter isDigit).length ≤ maxDigits

theorem Short.part (h : Short text) (hcs : cs <:+: text) : Short cs :=
  fun run hrun hall => h run (hrun.trans hcs) hall

theorem Short.length_le (h : Short text) (hds : ds <:+: text) (hdigits : ∀ c ∈ ds, isDigit c = true) :
    ds.length ≤ maxDigits := by
  have hle := h ds hds fun c hc => .inl (hdigits c hc)
  rwa [List.filter_eq_self.2 hdigits] at hle

theorem short_of_length_le (h : text.length ≤ maxDigits) : Short text := fun run hrun _ =>
  calc (run.filter isDigit).length ≤ run.length := List.length_filter_le ..
    _ ≤ text.length := hrun.length_le
    _ ≤ maxDigits := h

/-- What belongs to no number keeps the numbers before it and after it apart. -/
theorem Short.append_cons (ha : Short a) (hb : Short b) (hdigit : isDigit c = false)
    (hunderscore : c ≠ '_') : Short (a ++ c :: b) := by
  intro run hrun hall
  have hc : c ∉ run := by
    intro hmem
    rcases hall c hmem with h | h
    · rw [hdigit] at h
      cases h
    · exact hunderscore h
  rcases List.infix_append_iff.1 hrun with h | h | ⟨before, after, rfl, hbefore, hafter⟩
  · exact ha run h hall
  · rcases List.infix_cons_iff.1 h with h | h
    · cases run with
      | nil => simp
      | cons d rest => exact absurd (List.cons_prefix_cons.1 h).1 (by rintro rfl; simp at hc)
    · exact hb run h hall
  · cases after with
    | nil =>
      rw [List.append_nil] at hall ⊢
      exact ha before hbefore.isInfix hall
    | cons d rest => exact absurd (List.cons_prefix_cons.1 hafter).1 (by rintro rfl; simp at hc)

/-! ### Integers -/

theorem not_denotes_nil : ¬ Denotes [] z := by
  intro h
  cases h with
  | plain h =>
    obtain ⟨c, rest, hcs, -⟩ := h.exists_cons
    cases hcs

/-- An integer begins with a digit or a sign. -/
theorem Denotes.head? (h : Denotes cs z) : ∀ c ∈ cs.head?, isDigit c = true ∨ c = '-' ∨ c = '+' := by
  cases h with
  | plain h =>
    obtain ⟨d, rest, rfl, hd⟩ := h.exists_cons
    simpa using .inl hd
  | plus h => simp
  | minus h => simp

theorem readDigits_grouped (hshort : Short cs) (h : Grouped cs ds) :
    readDigits ds = .ok (digitsValue ds) := by
  obtain ⟨rfl, hall⟩ := h.digits
  rw [readDigits, if_pos (hshort cs (List.infix_refl cs) hall)]

/-- The number that grouped digits denote. -/
def readGrouped (cs : List Char) : Except IntegerError Nat :=
  match Text.groupedDigits? cs with
  | none => .error .malformed
  | some digits => readDigits digits

theorem readGrouped_eq_ok_iff (hshort : Short cs) {n : Nat} :
    readGrouped cs = .ok n ↔ ∃ ds, Grouped cs ds ∧ digitsValue ds = n := by
  unfold readGrouped
  cases hgroup : Text.groupedDigits? cs with
  | none =>
    refine iff_of_false nofun ?_
    rintro ⟨ds, hds, -⟩
    rw [hds.groupedDigits?] at hgroup
    cases hgroup
  | some digits =>
    have hdigits := groupedDigits?_eq_some_iff.1 hgroup
    simp only [readDigits_grouped hshort hdigits, Except.ok.injEq]
    constructor
    · rintro rfl
      exact ⟨digits, hdigits, rfl⟩
    · rintro ⟨ds, hds, rfl⟩
      rw [hds.groupedDigits?] at hgroup
      rw [Option.some.inj hgroup]

theorem map_readGrouped_eq_ok_iff (hshort : Short cs) {f : Nat → Int} :
    (readGrouped cs).map f = .ok z ↔ ∃ ds, Grouped cs ds ∧ z = f (digitsValue ds) := by
  simp only [map_eq_ok, readGrouped_eq_ok_iff hshort]
  constructor
  · rintro ⟨n, ⟨ds, hds, rfl⟩, rfl⟩
    exact ⟨ds, hds, rfl⟩
  · rintro ⟨ds, hds, rfl⟩
    exact ⟨_, ⟨ds, hds, rfl⟩, rfl⟩

theorem readTrimmed_minus :
    readTrimmed ('-' :: cs) = (readGrouped cs).map fun n : Nat => -(n : Int) := by
  show Except.map (fun n : Int => -n) (readGrouped cs >>= fun n => pure (n : Int)) = _
  cases readGrouped cs <;> rfl

/-- A sign is none of the digits. -/
theorem not_grouped_cons (hc : isDigit c = false) : ¬ Grouped (c :: cs) ds := by
  intro h
  obtain ⟨d, rest, heq, hd⟩ := h.exists_cons
  obtain ⟨rfl, -⟩ := List.cons.inj heq
  rw [hc] at hd
  cases hd

theorem denotes_minus_iff :
    Denotes ('-' :: cs) z ↔ ∃ ds, Grouped cs ds ∧ z = -(digitsValue ds : Int) := by
  constructor
  · intro h
    cases h with
    | plain h => exact absurd h (not_grouped_cons (by decide))
    | minus h => exact ⟨_, h, rfl⟩
  · rintro ⟨ds, h, rfl⟩
    exact .minus h

theorem denotes_plus_iff :
    Denotes ('+' :: cs) z ↔ ∃ ds, Grouped cs ds ∧ z = digitsValue ds := by
  constructor
  · intro h
    cases h with
    | plain h => exact absurd h (not_grouped_cons (by decide))
    | plus h => exact ⟨_, h, rfl⟩
  · rintro ⟨ds, h, rfl⟩
    exact .plus h

theorem denotes_plain_iff (hminus : ∀ rest, cs ≠ '-' :: rest) (hplus : ∀ rest, cs ≠ '+' :: rest) :
    Denotes cs z ↔ ∃ ds, Grouped cs ds ∧ z = digitsValue ds := by
  constructor
  · intro h
    cases h with
    | plain h => exact ⟨_, h, rfl⟩
    | plus h => exact absurd rfl (hplus _)
    | minus h => exact absurd rfl (hminus _)
  · rintro ⟨ds, h, rfl⟩
    exact .plain h

/-- An integer is read exactly where a text denotes it. -/
theorem readTrimmed_eq_ok_iff (hshort : Short cs) : readTrimmed cs = .ok z ↔ Denotes cs z := by
  by_cases hminus : ∃ rest, cs = '-' :: rest
  · obtain ⟨rest, rfl⟩ := hminus
    rw [readTrimmed_minus, denotes_minus_iff]
    exact map_readGrouped_eq_ok_iff (hshort.part (List.suffix_cons _ _).isInfix)
  by_cases hplus : ∃ rest, cs = '+' :: rest
  · obtain ⟨rest, rfl⟩ := hplus
    rw [denotes_plus_iff]
    exact map_readGrouped_eq_ok_iff (hshort.part (List.suffix_cons _ _).isInfix)
  · have hminus' : ∀ rest, cs ≠ '-' :: rest := fun rest h => hminus ⟨rest, h⟩
    have hplus' : ∀ rest, cs ≠ '+' :: rest := fun rest h => hplus ⟨rest, h⟩
    have hplain : readTrimmed cs = (readGrouped cs).map Int.ofNat := by
      unfold readTrimmed
      split
      · exact absurd rfl (hminus' _)
      · exact absurd rfl (hplus' _)
      · rfl
    rw [hplain, denotes_plain_iff hminus' hplus']
    exact map_readGrouped_eq_ok_iff hshort

/-- What may stand around an integer is blank, and so it is not at the ends of a trimmed text. -/
theorem readInteger_trim : readInteger (trim cs) = readTrimmed (trim cs) := by
  have hpadding {c : Char} (h : isBlank c = false) : isPadding c = false := by simp [isPadding, h]
  have hbegin : (trim cs).dropWhile isPadding = trim cs :=
    dropWhile_of_head? fun c hc => hpadding (isBlank_of_head?_trim hc)
  have hend : (trim cs).reverse.dropWhile isPadding = (trim cs).reverse :=
    dropWhile_of_head? fun c hc => hpadding (isBlank_of_head?_reverse_trim hc)
  rw [readInteger, hbegin, hend, List.reverse_reverse]

theorem readInteger_trim_eq_ok_iff (hshort : Short (trim cs)) :
    readInteger (trim cs) = .ok z ↔ Denotes (trim cs) z := by
  rw [readInteger_trim, readTrimmed_eq_ok_iff hshort]

end GridRobot.Text
