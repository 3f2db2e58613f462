import GridRobot.Reading

/-!
# Results of readings

What it says of readings, one after the other, that all come to a tree.

## Main definitions

* `Reads` says to which tree a reading comes, and what it leaves.
* `Pauses` says so of a reading that may leave everything.
-/

namespace GridRobot

variable {ε α β τ : Type} {tokens rest : List τ} {v : α} {b : β}

theorem bind_eq_ok {x : Except ε α} {f : α → Except ε β} :
    x >>= f = .ok b ↔ ∃ a, x = .ok a ∧ f a = .ok b := by
  cases x <;> simp [bind, Except.bind]

theorem bind_eq_error {x : Except ε α} {f : α → Except ε β} {e : ε} :
    x >>= f = .error e ↔ x = .error e ∨ ∃ a, x = .ok a ∧ f a = .error e := by
  cases x <;> simp [bind, Except.bind]

/-- Readings one after the other come to something when the first of them does, and then the rest. -/
theorem exists_bind_eq_ok {x : Except ε α} {f : α → Except ε β} :
    (∃ b, x >>= f = .ok b) ↔ ∃ a, x = .ok a ∧ ∃ b, f a = .ok b := by
  simp only [bind_eq_ok]
  exact ⟨fun ⟨b, a, ha, hb⟩ => ⟨a, ha, b, hb⟩, fun ⟨a, ha, b, hb⟩ => ⟨b, a, ha, hb⟩⟩

theorem mapError_eq_ok {δ : Type} {x : Except ε α} {f : ε → δ} :
    x.mapError f = .ok v ↔ x = .ok v := by
  cases x with
  | ok a =>
    show (Except.ok a : Except δ α) = .ok v ↔ (Except.ok a : Except ε α) = .ok v
    rw [Except.ok.injEq, Except.ok.injEq]
  | error e =>
    constructor
    · intro h
      cases h
    · intro h
      cases h

theorem map_eq_ok {x : Except ε α} {f : α → β} : x.map f = .ok b ↔ ∃ a, x = .ok a ∧ f a = b := by
  cases x <;> simp [Except.map]

theorem ok_bind (a : α) (f : α → Except ε β) : (Except.ok a >>= f) = f a := rfl

theorem mapError_error {δ : Type} (e : ε) (f : ε → δ) :
    (Except.error e : Except ε α).mapError f = .error (f e) := rfl

theorem mapError_ok {δ : Type} (a : α) (f : ε → δ) :
    (Except.ok a : Except ε α).mapError f = .ok a := rfl

theorem mapError_eq_error {δ : Type} {x : Except ε α} {f : ε → δ} {e : δ} :
    x.mapError f = .error e ↔ ∃ e', x = .error e' ∧ f e' = e := by
  cases x with
  | ok a => exact ⟨nofun, nofun⟩
  | error e' => simp [mapError_error]

/-- Readings one after the other fail where the first of them fails. -/
theorem mapM_eq_error {f : α → Except ε β} {l : List α} {e : ε} :
    l.mapM f = .error e ↔
      ∃ before a after, l = before ++ a :: after ∧ (∀ u ∈ before, ∃ b, f u = .ok b) ∧
        f a = .error e := by
  induction l with
  | nil => simp [pure, Except.pure]
  | cons a rest ih =>
    rw [List.mapM_cons, bind_eq_error]
    constructor
    · rintro (ha | ⟨b, hb, h⟩)
      · exact ⟨[], a, rest, rfl, by simp, ha⟩
      · obtain hrest | ⟨bs, -, h⟩ := bind_eq_error.1 h
        · obtain ⟨before, c, after, rfl, hbefore, hc⟩ := ih.1 hrest
          refine ⟨a :: before, c, after, rfl, ?_, hc⟩
          simpa using ⟨⟨b, hb⟩, hbefore⟩
        · cases h
    · rintro ⟨before, c, after, hl, hbefore, hc⟩
      cases before with
      | nil =>
        obtain ⟨rfl, rfl⟩ := List.cons.inj hl
        exact .inl hc
      | cons d before =>
        obtain ⟨rfl, rfl⟩ := List.cons.inj hl
        obtain ⟨b, hb⟩ := hbefore a (by simp)
        refine .inr ⟨b, hb, bind_eq_error.2 (.inl (ih.2 ⟨before, c, after, rfl, ?_, hc⟩))⟩
        exact fun u hu => hbefore u (by simp [hu])

theorem map_bind {γ : Type} {x : Except ε α} {f : α → Except ε β} {g : β → γ} :
    (x >>= f).map g = x >>= fun a => (f a).map g := by
  cases x <;> rfl

theorem map_eq_error {x : Except ε α} {f : α → β} {e : ε} : x.map f = .error e ↔ x = .error e := by
  cases x <;> simp [Except.map]

/-- Checks one after the other fail where the first of them fails. -/
theorem forM_eq_error {f : α → Except ε Unit} {l : List α} {e : ε} :
    forM l f = .error e ↔
      ∃ before a after, l = before ++ a :: after ∧ (∀ u ∈ before, f u = .ok ()) ∧ f a = .error e := by
  induction l with
  | nil => simp [pure, Except.pure]
  | cons a rest ih =>
    rw [List.forM_cons, bind_eq_error, ih]
    constructor
    · rintro (ha | ⟨⟨⟩, hok, before, c, after, rfl, hbefore, hc⟩)
      · exact ⟨[], a, rest, rfl, by simp, ha⟩
      · exact ⟨a :: before, c, after, rfl, by simpa using ⟨hok, hbefore⟩, hc⟩
    · rintro ⟨before, c, after, hl, hbefore, hc⟩
      cases before with
      | nil =>
        obtain ⟨rfl, rfl⟩ := List.cons.inj hl
        exact .inl hc
      | cons d before =>
        obtain ⟨rfl, rfl⟩ := List.cons.inj hl
        refine .inr ⟨(), hbefore a (by simp), before, c, after, rfl, ?_, hc⟩
        exact fun u hu => hbefore u (by simp [hu])

/-- What readings one after the other come to are results of theirs. -/
theorem exists_of_mem_mapM {f : α → Except ε β} {l : List α} {out : List β} (h : l.mapM f = .ok out) :
    ∀ b ∈ out, ∃ a ∈ l, f a = .ok b := by
  induction l generalizing out with
  | nil =>
    cases h
    simp
  | cons a rest ih =>
    rw [List.mapM_cons] at h
    obtain ⟨b, hb, h⟩ := bind_eq_ok.1 h
    obtain ⟨bs, hbs, h⟩ := bind_eq_ok.1 h
    cases h
    rintro c (_ | ⟨_, hc⟩)
    · exact ⟨a, by simp, hb⟩
    · obtain ⟨d, hd, hfd⟩ := ih hbs c hc
      exact ⟨d, by simp [hd], hfd⟩

/-- The reading comes to a tree, and leaves a rest. -/
def Reads (r : Except ε (Step α tokens)) (v : α) (rest : List τ) : Prop :=
  ∃ h, r = .ok ⟨v, rest, h⟩

/-- The reading comes to a tree, perhaps without a token, and leaves a rest. -/
def Pauses (r : Except ε (Pause α tokens)) (v : α) (rest : List τ) : Prop :=
  ∃ h, r = .ok ⟨v, rest, h⟩

theorem Reads.rest_lt {r : Except ε (Step α tokens)} (h : Reads r v rest) :
    rest.length < tokens.length :=
  h.choose

theorem Pauses.rest_le {r : Except ε (Pause α tokens)} (h : Pauses r v rest) :
    rest.length ≤ tokens.length :=
  h.choose

theorem reads_ok {s : Step α tokens} :
    Reads (.ok s : Except ε (Step α tokens)) v rest ↔ v = s.value ∧ rest = s.rest := by
  obtain ⟨value, left, h⟩ := s
  simp only [Reads, Except.ok.injEq, Step.mk.injEq]
  constructor
  · rintro ⟨_, rfl, rfl⟩
    exact ⟨rfl, rfl⟩
  · rintro ⟨rfl, rfl⟩
    exact ⟨h, rfl, rfl⟩

theorem pauses_ok {s : Pause α tokens} :
    Pauses (.ok s : Except ε (Pause α tokens)) v rest ↔ v = s.value ∧ rest = s.rest := by
  obtain ⟨value, left, h⟩ := s
  simp only [Pauses, Except.ok.injEq, Pause.mk.injEq]
  constructor
  · rintro ⟨_, rfl, rfl⟩
    exact ⟨rfl, rfl⟩
  · rintro ⟨rfl, rfl⟩
    exact ⟨h, rfl, rfl⟩

theorem not_reads_error {e : ε} : ¬ Reads (.error e : Except ε (Step α tokens)) v rest := by
  simp [Reads]

/-! ### One reading after the other -/

variable {others : List τ}

theorem reads_bind {x : Except ε β} {f : β → Except ε (Step α tokens)} :
    Reads (x >>= f) v rest ↔ ∃ a, x = .ok a ∧ Reads (f a) v rest := by
  cases x <;> simp [Reads, bind, Except.bind]

theorem pauses_bind {x : Except ε β} {f : β → Except ε (Pause α tokens)} :
    Pauses (x >>= f) v rest ↔ ∃ a, x = .ok a ∧ Pauses (f a) v rest := by
  cases x <;> simp [Pauses, bind, Except.bind]

/-- That a step comes to something with a property, said of its tree and its rest. -/
theorem exists_step {x : Except ε (Step β others)} {P : Step β others → Prop} :
    (∃ s, x = .ok s ∧ P s) ↔ ∃ a mid, ∃ h : Reads x a mid, P ⟨a, mid, h.rest_lt⟩ := by
  constructor
  · rintro ⟨⟨a, mid, h⟩, hx, hP⟩
    exact ⟨a, mid, ⟨h, hx⟩, hP⟩
  · rintro ⟨a, mid, ⟨h, hx⟩, hP⟩
    exact ⟨⟨a, mid, h⟩, hx, hP⟩

theorem exists_pause {x : Except ε (Pause β others)} {P : Pause β others → Prop} :
    (∃ s, x = .ok s ∧ P s) ↔ ∃ a mid, ∃ h : Pauses x a mid, P ⟨a, mid, h.rest_le⟩ := by
  constructor
  · rintro ⟨⟨a, mid, h⟩, hx, hP⟩
    exact ⟨a, mid, ⟨h, hx⟩, hP⟩
  · rintro ⟨a, mid, ⟨h, hx⟩, hP⟩
    exact ⟨⟨a, mid, h⟩, hx, hP⟩

end GridRobot
