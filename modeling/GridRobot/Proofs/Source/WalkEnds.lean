import GridRobot.Proofs.Source.Walk

/-!
# A walk over the tokens ends inside the text

A walk with a cursor and the reading functions that hand on their rests are followed side by side.
Where the cursor stands before the tokens that a reading function is given, the walk comes to an
end, with the same tree or the same failure; and if there is a tree, then the cursor stands before
the rest, and the levels that were opened are closed again. The rest of a reading is shorter than
what it was read from, so every walk that reads a tree has moved its cursor forward.

Four calls at most are nested in one another before a token is read, as those of `parseOr`,
`parseAnd`, `parseUnary` and `parseCall` are. So a walk has room enough for its calls if there are
four of them for each token that is left, and those besides that come before the first token.

## Main definitions

* `Cursor.Stands` says which tokens are ahead of a cursor, and how many levels are open.
* `Follows` relates the outcome of a walk to the outcome of a reading.
* `Walk.Ends` says that a walk comes to an end from each place inside a text.

## Main statements

* `parseOr_follows`, `parseStatement_follows`, `parseListing_follows`: a walk is a reading.
* `walk_ends`: every walk ends inside the text, and the walk through the whole text reads the same
  listing as `parse`.
-/

namespace GridRobot.Source

/-- Some tokens are ahead of a cursor inside a text, and so many levels are open. -/
structure Cursor.Stands (text : TokenList) (depth : Nat) (ts : List Token) (c : Cursor) : Prop where
  ahead : text.tokens.drop c.index = ts
  inside : c.index ≤ text.tokens.length
  levels : c.depth = depth

/-- A walk and a reading have both come to their ends: both have failed for the same reason, or what
the walk has found, with the place of its cursor, agrees with what was read. -/
inductive Follows {α β : Type} (Agree : β → α → Cursor → Prop) :
    Option (Except Halt (α × Cursor)) → Except Failure β → Prop
  | ok {a : α} {b : β} {c : Cursor} (h : Agree b a c) : Follows Agree (some (.ok (a, c))) (.ok b)
  | failed (f : Failure) : Follows Agree (some (.error (.failed f))) (.error f)

section

variable {α : Type} {ts : List Token}

/-- A walk has found what was read, and its cursor stands before the rest. -/
def FollowsStep (text : TokenList) (depth : Nat) (w : Option (Except Halt (α × Cursor)))
    (x : Reading α ts) : Prop :=
  Follows (fun s a c => s.value = a ∧ c.Stands text depth s.rest) w x

/-- The same where perhaps no token was read. -/
def FollowsPause (text : TokenList) (depth : Nat) (w : Option (Except Halt (α × Cursor)))
    (x : Except Failure (Pause α ts)) : Prop :=
  Follows (fun s a c => s.value = a ∧ c.Stands text depth s.rest) w x

end

/-! ### One walk after the other -/

section

variable {α β γ δ : Type} {text : TokenList} {depth : Nat} {ts : List Token} {c c' : Cursor}
  {w : Walk α} {k : α → Walk β} {Agree : δ → β → Cursor → Prop}

theorem Walk.bind_ok {a : α} (h : w c = some (.ok (a, c'))) : (w >>= k) c = k a c' := by
  change ((w c : ExceptT Halt Option (α × Cursor)) >>= fun p => k p.1 p.2) = k a c'
  rw [h]
  rfl

theorem Walk.bind_failed {f : Failure} (h : w c = some (.error (.failed f))) :
    (w >>= k) c = some (.error (.failed f)) := by
  change ((w c : ExceptT Halt Option (α × Cursor)) >>= fun p => k p.1 p.2) = _
  rw [h]
  rfl

namespace Follows

/-- A move of the cursor to which no part of the reading answers. -/
theorem move {a : α} {x : Except Failure δ} (hw : w c = some (.ok (a, c')))
    (h : Follows Agree (k a c') x) : Follows Agree ((w >>= k) c) x := by
  rw [Walk.bind_ok hw]
  exact h

theorem bind {Before : γ → α → Cursor → Prop} {x : Except Failure γ} {g : γ → Except Failure δ}
    (h : Follows Before (w c) x) (hk : ∀ v a c', Before v a c' → Follows Agree (k a c') (g v)) :
    Follows Agree ((w >>= k) c) (x >>= g) := by
  generalize hw : w c = outcome at h
  cases h with
  | ok hv => exact .move hw (hk _ _ _ hv)
  | failed f =>
    rw [Walk.bind_failed hw]
    exact .failed f

/-- The walk goes on where a value was found without a move. -/
theorem stay {x : Except Failure α} {g : α → Except Failure δ}
    (h : Follows (fun v a c' => v = a ∧ c'.Stands text depth ts) (w c) x)
    (hk : ∀ v c', c'.Stands text depth ts → Follows Agree (k v c') (g v)) :
    Follows Agree ((w >>= k) c) (x >>= g) :=
  h.bind fun v _ c' ⟨hvalue, hc'⟩ => hvalue ▸ hk v c' hc'

end Follows

/-- The walk goes on from the rest that a reading has left. -/
theorem FollowsStep.step {x : Reading α ts} {g : Step α ts → Except Failure δ}
    (h : FollowsStep text depth (w c) x)
    (hk : ∀ v rest c' (hlt : rest.length < ts.length), c'.Stands text depth rest →
      Follows Agree (k v c') (g ⟨v, rest, hlt⟩)) :
    Follows Agree ((w >>= k) c) (x >>= g) :=
  h.bind fun s _ c' ⟨hvalue, hc'⟩ => hvalue ▸ hk s.value s.rest c' s.rest_lt hc'

theorem FollowsPause.pause {x : Except Failure (Pause α ts)} {g : Pause α ts → Except Failure δ}
    (h : FollowsPause text depth (w c) x)
    (hk : ∀ v rest c' (hle : rest.length ≤ ts.length), c'.Stands text depth rest →
      Follows Agree (k v c') (g ⟨v, rest, hle⟩)) :
    Follows Agree ((w >>= k) c) (x >>= g) :=
  h.bind fun s _ c' ⟨hvalue, hc'⟩ => hvalue ▸ hk s.value s.rest c' s.rest_le hc'

/-- The walk has come to its end as well where a reading has only its rest to hand on. -/
theorem FollowsStep.finish {Agree : δ → α → Cursor → Prop} {x : Reading α ts}
    {g : Step α ts → Except Failure δ} (h : FollowsStep text depth (w c) x)
    (hk : ∀ v rest c' (hlt : rest.length < ts.length), c'.Stands text depth rest →
      Follows Agree ((pure v : Walk α) c') (g ⟨v, rest, hlt⟩)) :
    Follows Agree (w c) (x >>= g) := by
  have hstep := h.step hk
  rwa [bind_pure] at hstep

theorem FollowsPause.finish {Agree : δ → α → Cursor → Prop} {x : Except Failure (Pause α ts)}
    {g : Pause α ts → Except Failure δ} (h : FollowsPause text depth (w c) x)
    (hk : ∀ v rest c' (hle : rest.length ≤ ts.length), c'.Stands text depth rest →
      Follows Agree ((pure v : Walk α) c') (g ⟨v, rest, hle⟩)) :
    Follows Agree (w c) (x >>= g) := by
  have hpause := h.pause hk
  rwa [bind_pure] at hpause

end

/-! ### Single tokens and levels -/

section

variable {α β : Type} {limit fuel depth : Nat} {text : TokenList} {ts : List Token} {t : Token}
  {l : Lexeme} {c : Cursor} {Agree : β → α → Cursor → Prop}

namespace Cursor

/-- The cursor behind the next token. -/
def next (c : Cursor) : Cursor := { c with index := c.index + 1 }

/-- The cursor with a further level. -/
def deeper (c : Cursor) : Cursor := { c with depth := c.depth + 1 }

/-- The cursor with a level closed. -/
def higher (c : Cursor) : Cursor := { c with depth := c.depth - 1 }

namespace Stands

theorem length_add_index (h : c.Stands text depth ts) :
    ts.length + c.index = text.tokens.length := by
  have hlength := congrArg List.length h.ahead
  have hinside := h.inside
  simp only [List.length_drop] at hlength
  omega

theorem index_lt (h : c.Stands text depth (t :: ts)) : c.index < text.tokens.length := by
  have hlength := h.length_add_index
  simp only [List.length_cons] at hlength
  omega

/-- A cursor is where the tokens ahead of it begin. -/
theorem unique {c' : Cursor} (h : c.Stands text depth ts) (h' : c'.Stands text depth ts) :
    c = c' := by
  have hindex := h.length_add_index.trans h'.length_add_index.symm
  have hdepth := h.levels.trans h'.levels.symm
  obtain ⟨index, depth⟩ := c
  obtain ⟨index', depth'⟩ := c'
  simp only [Nat.add_left_cancel_iff] at hindex hdepth
  rw [hindex, hdepth]

theorem next (h : c.Stands text depth (t :: ts)) : c.next.Stands text depth ts := by
  refine ⟨?_, h.index_lt, h.levels⟩
  have htail := congrArg List.tail h.ahead
  rwa [List.tail_drop] at htail

theorem deeper (h : c.Stands text depth ts) : c.deeper.Stands text (depth + 1) ts :=
  ⟨h.ahead, h.inside, congrArg (· + 1) h.levels⟩

theorem higher (h : c.Stands text (depth + 1) ts) : c.higher.Stands text depth ts :=
  ⟨h.ahead, h.inside, congrArg (· - 1) h.levels⟩

end Stands

end Cursor

open Walk

theorem look_stands (h : c.Stands text depth ts) : look text c = some (.ok (ts.head?, c)) := by
  have hhead : text.tokens[c.index]? = ts.head? := by rw [← h.ahead, List.head?_drop]
  unfold look
  change (if c.index ≤ text.tokens.length then _ else _ : Walk (Option Token)) c = _
  rw [if_pos h.inside, hhead]
  rfl

theorem advance_stands (h : c.Stands text depth (t :: ts)) :
    advance text c = some (.ok (⟨⟩, c.next)) := by
  unfold advance
  change (if c.index < text.tokens.length then _ else _ : Walk PUnit) c = _
  rw [if_pos h.index_lt]
  rfl

theorem take?_hit (h : c.Stands text depth (t :: ts)) (hl : t.lexeme = l) :
    take? text l c = some (.ok (some t, c.next)) := by
  unfold take?
  rw [bind_ok (look_stands h)]
  dsimp only [List.head?_cons]
  rw [if_pos hl, bind_ok (advance_stands h)]
  rfl

theorem take?_miss (h : c.Stands text depth ts) (hl : ∀ p rest, ts ≠ ⟨l, p⟩ :: rest) :
    take? text l c = some (.ok (none, c)) := by
  unfold take?
  rw [bind_ok (look_stands h)]
  cases ts with
  | nil => rfl
  | cons t rest =>
    have ht : t.lexeme ≠ l := fun ht => hl t.position rest (ht ▸ rfl)
    dsimp only [List.head?_cons]
    rw [if_neg ht]
    rfl

theorem take?_other (h : c.Stands text depth (t :: ts)) (hl : t.lexeme ≠ l) :
    take? text l c = some (.ok (none, c)) := by
  refine take?_miss h ?_
  rintro p rest ⟨⟩
  exact hl rfl

theorem take?_nil (h : c.Stands text depth []) : take? text l c = some (.ok (none, c)) :=
  take?_miss h fun _ _ hnil => by cases hnil

theorem leave_stands : leave c = some (.ok (⟨⟩, c.higher)) := rfl

theorem failHere_follows (limit : Nat) (h : c.Stands text depth ts)
    {cause : Option Lexeme → Cause} :
    Follows Agree (Walk.failHere text cause c) (failHere ⟨limit, text.finish⟩ ts cause) := by
  unfold Walk.failHere
  refine .move (look_stands h) ?_
  cases ts with
  | nil => exact .failed _
  | cons t rest => exact .failed _

theorem failAt_follows {cause : Cause} :
    Follows Agree (Walk.failAt t cause c) (failAt t cause) :=
  .failed _

theorem expectLexeme_follows (h : c.Stands text depth ts) (l : Lexeme) :
    FollowsStep text depth (Walk.expectLexeme text l c)
      (expectLexeme ⟨limit, text.finish⟩ l ts) := by
  unfold Walk.expectLexeme
  cases ts with
  | nil => exact .move (take?_nil h) (failHere_follows limit h)
  | cons t rest =>
    rw [expectLexeme]
    split
    · next hl => exact .move (take?_hit h hl) (.ok ⟨rfl, h.next⟩)
    · next hl => exact .move (take?_other h hl) (failHere_follows limit h)

theorem expectSymbol_follows (h : c.Stands text depth ts) (s : Symbol) :
    FollowsStep text depth (Walk.expectLexeme text (.symbol s) c)
      (expectSymbol ⟨limit, text.finish⟩ s ts) :=
  expectLexeme_follows h (.symbol s)

theorem expectName_follows (h : c.Stands text depth ts) :
    FollowsStep text depth (Walk.expectName text c) (expectName ⟨limit, text.finish⟩ ts) := by
  unfold Walk.expectName
  refine .move (look_stands h) ?_
  cases ts with
  | nil => exact failHere_follows limit h
  | cons t rest =>
    obtain ⟨l, p⟩ := t
    cases l with
    | word name => exact .move (advance_stands h) (.ok ⟨rfl, h.next⟩)
    | _ => exact failHere_follows limit h

/-- A number of levels is checked without a move. -/
theorem checkLevels_follows (h : c.Stands text depth ts) (levels : Nat) :
    Follows (fun _ _ c' => c'.Stands text depth ts) (Walk.checkLevels limit levels t c)
      (checkLevels ⟨limit, text.finish⟩ levels t) := by
  unfold Walk.checkLevels checkLevels
  by_cases hlevels : levels ≤ limit
  · rw [if_pos hlevels, if_pos hlevels]
    exact .ok h
  · rw [if_neg hlevels, if_neg hlevels]
    exact failAt_follows

theorem enter_follows (h : c.Stands text depth ts) :
    Follows (fun _ _ c' => c'.Stands text (depth + 1) ts) (enter limit t c)
      (checkLevels ⟨limit, text.finish⟩ (depth + 1) t) := by
  obtain ⟨hahead, hinside, rfl⟩ := h
  exact checkLevels_follows (Cursor.Stands.deeper ⟨hahead, hinside, rfl⟩) (c.depth + 1)

/-! ### Calls -/

theorem parseArgument_follows (h : c.Stands text depth ts) :
    FollowsStep text depth (Walk.parseArgument text c)
      (parseArgument ⟨limit, text.finish⟩ ts) := by
  unfold Walk.parseArgument
  refine .move (look_stands h) ?_
  cases ts with
  | nil => exact failHere_follows limit h
  | cons t rest =>
    obtain ⟨l, p⟩ := t
    cases l with
    | word name => exact .move (advance_stands h) (.ok ⟨rfl, h.next⟩)
    | number digits => exact .move (advance_stands h) (.ok ⟨rfl, h.next⟩)
    | _ => exact failHere_follows limit h

theorem parseMoreArguments_follows {fuel : Nat} {ts : List Token} {c : Cursor}
    (h : c.Stands text depth ts) (hfuel : 4 * ts.length < fuel) :
    FollowsStep text depth (Walk.parseMoreArguments text fuel c)
      (parseMoreArguments ⟨limit, text.finish⟩ ts) := by
  obtain _ | fuel := fuel
  · omega
  rw [Walk.parseMoreArguments, parseMoreArguments]
  refine (parseArgument_follows h).step fun first mid c₁ hmid h₁ => ?_
  dsimp only
  split
  · exact .move (take?_hit h₁ rfl) (.ok ⟨rfl, h₁.next⟩)
  · next hno =>
    refine .move (take?_miss h₁ ?_) ?_
    · rintro p after rfl
      exact hno p after hmid rfl HEq.rfl
    refine (expectSymbol_follows h₁ .comma).step fun _ after c₂ hafter h₂ => ?_
    exact (parseMoreArguments_follows h₂ (by omega)).step fun others beyond c₃ _ h₃ =>
      .ok ⟨rfl, h₃⟩
termination_by ts.length

theorem parseArguments_follows (h : c.Stands text depth ts) (hfuel : 4 * ts.length < fuel) :
    FollowsStep text depth (Walk.parseArguments text fuel c)
      (parseArguments ⟨limit, text.finish⟩ ts) := by
  unfold Walk.parseArguments parseArguments
  split
  · exact .move (take?_hit h rfl) (.ok ⟨rfl, h.next⟩)
  · next hno => exact .move (take?_miss h hno) (parseMoreArguments_follows h hfuel)

theorem parseCall_follows (h : c.Stands text depth ts) (hfuel : 4 * ts.length < fuel) :
    FollowsStep text depth (Walk.parseCall text fuel c)
      (parseCall ⟨limit, text.finish⟩ ts) := by
  unfold Walk.parseCall
  refine (expectName_follows h).step fun name mid c₁ hmid h₁ => ?_
  refine (expectSymbol_follows h₁ .leftParen).step fun _ after c₂ hafter h₂ => ?_
  exact (parseArguments_follows h₂ (by omega)).step fun arguments beyond c₃ _ h₃ => .ok ⟨rfl, h₃⟩

/-! ### Conditions -/

theorem connect_follows (h : c.Stands text depth ts) (op : Connective) (left right : Condition) :
    Follows (fun v a c' => v = a ∧ c'.Stands text depth ts) (Walk.connect limit op left right t c)
      (connect ⟨limit, text.finish⟩ op left right t) := by
  unfold Walk.connect connect
  exact (checkLevels_follows h _).bind fun _ _ _ h' => .ok ⟨rfl, h'⟩

mutual

theorem parseOr_follows {fuel depth : Nat} {ts : List Token} {c : Cursor}
    (h : c.Stands text depth ts) (hfuel : 4 * ts.length + 3 < fuel) :
    FollowsStep text depth (Walk.parseOr limit text fuel c)
      (parseOr ⟨limit, text.finish⟩ depth ts) := by
  obtain _ | fuel := fuel
  · omega
  rw [Walk.parseOr, parseOr]
  refine (parseAnd_follows h (by omega)).step fun left mid c₁ hmid h₁ => ?_
  exact (parseOrMore_follows left h₁ (by omega)).finish fun both rest c₂ _ h₂ => .ok ⟨rfl, h₂⟩
termination_by (ts.length, 3)

theorem parseOrMore_follows {fuel depth : Nat} {ts : List Token} {c : Cursor} (left : Condition)
    (h : c.Stands text depth ts) (hfuel : 4 * ts.length < fuel) :
    FollowsPause text depth (Walk.parseOrMore limit text fuel left c)
      (parseOrMore ⟨limit, text.finish⟩ depth left ts) := by
  match fuel, ts, h, hfuel with
  | 0, _, _, _ => omega
  | fuel + 1, [], h, _ =>
    rw [Walk.parseOrMore, parseOrMore]
    exact .move (take?_nil h) (.ok ⟨rfl, h⟩)
  | fuel + 1, t :: ts, h, hfuel =>
    rw [Walk.parseOrMore, parseOrMore]
    rw [List.length_cons] at hfuel
    split
    · next hl =>
      refine .move (take?_hit h hl) ?_
      refine (parseAnd_follows h.next (by omega)).step fun right after c₁ hafter h₁ => ?_
      refine (connect_follows h₁ .either left right).stay fun both c₂ h₂ => ?_
      exact (parseOrMore_follows both h₂ (by omega)).finish fun all rest c₃ _ h₃ => .ok ⟨rfl, h₃⟩
    · next hl => exact .move (take?_other h hl) (.ok ⟨rfl, h⟩)
termination_by (ts.length, 0)

theorem parseAnd_follows {fuel depth : Nat} {ts : List Token} {c : Cursor}
    (h : c.Stands text depth ts) (hfuel : 4 * ts.length + 2 < fuel) :
    FollowsStep text depth (Walk.parseAnd limit text fuel c)
      (parseAnd ⟨limit, text.finish⟩ depth ts) := by
  obtain _ | fuel := fuel
  · omega
  rw [Walk.parseAnd, parseAnd]
  refine (parseUnary_follows h (by omega)).step fun left mid c₁ hmid h₁ => ?_
  exact (parseAndMore_follows left h₁ (by omega)).finish fun both rest c₂ _ h₂ => .ok ⟨rfl, h₂⟩
termination_by (ts.length, 2)

theorem parseAndMore_follows {fuel depth : Nat} {ts : List Token} {c : Cursor} (left : Condition)
    (h : c.Stands text depth ts) (hfuel : 4 * ts.length < fuel) :
    FollowsPause text depth (Walk.parseAndMore limit text fuel left c)
      (parseAndMore ⟨limit, text.finish⟩ depth left ts) := by
  match fuel, ts, h, hfuel with
  | 0, _, _, _ => omega
  | fuel + 1, [], h, _ =>
    rw [Walk.parseAndMore, parseAndMore]
    exact .move (take?_nil h) (.ok ⟨rfl, h⟩)
  | fuel + 1, t :: ts, h, hfuel =>
    rw [Walk.parseAndMore, parseAndMore]
    rw [List.length_cons] at hfuel
    split
    · next hl =>
      refine .move (take?_hit h hl) ?_
      refine (parseUnary_follows h.next (by omega)).step fun right after c₁ hafter h₁ => ?_
      refine (connect_follows h₁ .both left right).stay fun both c₂ h₂ => ?_
      exact (parseAndMore_follows both h₂ (by omega)).finish fun all rest c₃ _ h₃ => .ok ⟨rfl, h₃⟩
    · next hl => exact .move (take?_other h hl) (.ok ⟨rfl, h⟩)
termination_by (ts.length, 0)

theorem parseUnary_follows {fuel depth : Nat} {ts : List Token} {c : Cursor}
    (h : c.Stands text depth ts) (hfuel : 4 * ts.length + 1 < fuel) :
    FollowsStep text depth (Walk.parseUnary limit text fuel c)
      (parseUnary ⟨limit, text.finish⟩ depth ts) := by
  match fuel, ts, h, hfuel with
  | 0, _, _, _ => omega
  | fuel + 1, [], h, _ =>
    rw [Walk.parseUnary, parseUnary]
    refine .move (look_stands h) ?_
    exact failHere_follows limit h
  | fuel + 1, ⟨l, p⟩ :: ts, h, hfuel =>
    rw [Walk.parseUnary, parseUnary]
    refine .move (look_stands h) ?_
    rw [List.length_cons] at hfuel
    cases l with
    | symbol s =>
      cases s with
      | bang =>
        refine .move (advance_stands h) ?_
        refine (enter_follows h.next).bind fun _ _ c₁ h₁ => ?_
        refine (parseUnary_follows h₁ (by omega)).step fun operand after c₂ hafter h₂ => ?_
        refine .move leave_stands ?_
        exact (checkLevels_follows h₂.higher _).bind fun _ _ c₃ h₃ => .ok ⟨rfl, h₃⟩
      | leftParen =>
        refine .move (advance_stands h) ?_
        refine (enter_follows h.next).bind fun _ _ c₁ h₁ => ?_
        refine (parseOr_follows h₁ (by omega)).step fun inner after c₂ hafter h₂ => ?_
        refine (expectSymbol_follows h₂ .rightParen).step fun _ beyond c₃ _ h₃ => ?_
        exact .move leave_stands (.ok ⟨rfl, h₃.higher⟩)
      | _ => exact failHere_follows limit h
    | word name =>
      refine (parseCall_follows h ?_).step fun call after c₁ _ h₁ => .ok ⟨rfl, h₁⟩
      rw [List.length_cons]
      omega
    | _ => exact failHere_follows limit h
termination_by (ts.length, 1)

end

theorem parseCondition_follows (h : c.Stands text depth ts) (hfuel : 4 * ts.length < fuel) :
    FollowsStep text depth (Walk.parseCondition limit text fuel c)
      (parseCondition ⟨limit, text.finish⟩ depth ts) := by
  unfold Walk.parseCondition
  refine (expectSymbol_follows h .leftParen).step fun _ mid c₁ hmid h₁ => ?_
  refine (parseOr_follows h₁ (by omega)).step fun v after c₂ _ h₂ => ?_
  exact (expectSymbol_follows h₂ .rightParen).step fun _ rest c₃ _ h₃ => .ok ⟨rfl, h₃⟩

/-! ### Statements -/

theorem parseCount_follows (h : c.Stands text depth ts) (hfuel : 4 * ts.length < fuel) :
    FollowsStep text depth (Walk.parseCount text fuel t c)
      (parseCount ⟨limit, text.finish⟩ t ts) := by
  unfold Walk.parseCount
  refine (expectSymbol_follows h .leftParen).step fun _ mid c₁ hmid h₁ => ?_
  refine (parseArguments_follows h₁ (by omega)).step fun arguments after c₂ _ h₂ => ?_
  -- the reader looks at the lexeme of the first argument before it asks for others
  match arguments with
  | [] => exact failAt_follows
  | ⟨l, _⟩ :: _ :: _ =>
    cases l with
    | _ => exact failAt_follows
  | [⟨l, _⟩] =>
    cases l with
    | number digits =>
      dsimp only
      cases Text.readDigits digits.toList with
      | ok count => exact .ok ⟨rfl, h₂⟩
      | error e => exact .failed _
    | _ => exact failAt_follows

mutual

theorem parseBlock_follows {fuel depth : Nat} {ts : List Token} {c : Cursor}
    (h : c.Stands text depth ts) (hfuel : 4 * ts.length < fuel) :
    FollowsStep text depth (Walk.parseBlock limit text fuel c)
      (parseBlock ⟨limit, text.finish⟩ depth ts) := by
  obtain _ | fuel := fuel
  · omega
  rw [Walk.parseBlock, parseBlock]
  refine (expectSymbol_follows h .leftBrace).step fun brace mid c₁ hmid h₁ => ?_
  refine (enter_follows h₁).bind fun _ _ c₂ h₂ => ?_
  refine (parseBody_follows h₂ (by omega)).step fun body rest c₃ _ h₃ => ?_
  exact .move leave_stands (.ok ⟨rfl, h₃.higher⟩)
termination_by (ts.length, 0)

theorem parseBody_follows {fuel depth : Nat} {ts : List Token} {c : Cursor}
    (h : c.Stands text depth ts) (hfuel : 4 * ts.length + 2 < fuel) :
    FollowsStep text depth (Walk.parseBody limit text fuel c)
      (parseBody ⟨limit, text.finish⟩ depth ts) := by
  match fuel, ts, h, hfuel with
  | 0, _, _, _ => omega
  | fuel + 1, [], h, _ =>
    rw [Walk.parseBody, parseBody]
    exact .move (take?_nil h) (.move (look_stands h) (failHere_follows limit h))
  | fuel + 1, t :: ts, h, hfuel =>
    rw [Walk.parseBody, parseBody]
    split
    · next hl => exact .move (take?_hit h hl) (.ok ⟨rfl, h.next⟩)
    · next hl =>
      refine .move (take?_other h hl) (.move (look_stands h) ?_)
      refine (parseStatement_follows h (by omega)).step fun first mid c₁ hmid h₁ => ?_
      exact (parseBody_follows h₁ (by omega)).step fun others rest c₂ _ h₂ => .ok ⟨rfl, h₂⟩
termination_by (ts.length, 2)

theorem parseStatement_follows {fuel depth : Nat} {ts : List Token} {c : Cursor}
    (h : c.Stands text depth ts) (hfuel : 4 * ts.length + 1 < fuel) :
    FollowsStep text depth (Walk.parseStatement limit text fuel c)
      (parseStatement ⟨limit, text.finish⟩ depth ts) := by
  match fuel, ts, h, hfuel with
  | 0, _, _, _ => omega
  | fuel + 1, [], h, _ =>
    rw [Walk.parseStatement, parseStatement]
    refine .move (look_stands h) ?_
    exact failHere_follows limit h
  | fuel + 1, ⟨l, p⟩ :: ts, h, hfuel =>
    rw [Walk.parseStatement, parseStatement]
    refine .move (look_stands h) ?_
    rw [List.length_cons] at hfuel
    cases l with
    | symbol s =>
      cases s with
      | semicolon => exact .move (advance_stands h) (.ok ⟨rfl, h.next⟩)
      | _ => exact failHere_follows limit h
    | keyword k =>
      cases k with
      | ifWord =>
        refine .move (advance_stands h) ?_
        exact (parseIf_follows _ h.next (by omega)).step fun s rest c₁ _ h₁ => .ok ⟨rfl, h₁⟩
      | whileWord =>
        refine .move (advance_stands h) ?_
        refine (parseCondition_follows h.next (by omega)).step fun v mid c₁ hmid h₁ => ?_
        exact (parseBlock_follows h₁ (by omega)).step fun body rest c₂ _ h₂ => .ok ⟨rfl, h₂⟩
      | doWord =>
        refine .move (advance_stands h) ?_
        refine (parseBlock_follows h.next (by omega)).step fun body mid c₁ hmid h₁ => ?_
        refine (expectLexeme_follows h₁ (.keyword .whileWord)).step
          fun _ after c₂ hafter h₂ => ?_
        refine (parseCondition_follows h₂ (by omega)).step fun v beyond c₃ _ h₃ => ?_
        exact (expectSymbol_follows h₃ .semicolon).step fun _ rest c₄ _ h₄ => .ok ⟨rfl, h₄⟩
      | repeatWord =>
        -- a reading has no function of its own for the remainder of a `repeat`
        obtain _ | fuel := fuel
        · omega
        dsimp only [List.head?_cons]
        rw [Walk.parseRepeat]
        simp only [bind_assoc, pure_bind]
        refine .move (advance_stands h) ?_
        refine (parseCount_follows h.next (by omega)).step fun count mid c₁ hmid h₁ => ?_
        exact (parseBlock_follows h₁ (by omega)).step fun body rest c₂ _ h₂ => .ok ⟨rfl, h₂⟩
      | function => exact failAt_follows
      | void => exact failAt_follows
      | elseWord => exact failHere_follows limit h
    | word name =>
      refine (parseCall_follows h ?_).step fun call mid c₁ _ h₁ => ?_
      · rw [List.length_cons]
        omega
      exact (expectSymbol_follows h₁ .semicolon).step fun _ rest c₂ _ h₂ => .ok ⟨rfl, h₂⟩
    | number digits => exact failHere_follows limit h
termination_by (ts.length, 1)

theorem parseIf_follows {fuel depth : Nat} {ts : List Token} {c : Cursor} (t : Token)
    (h : c.Stands text depth ts) (hfuel : 4 * ts.length + 1 < fuel) :
    FollowsStep text depth (Walk.parseIf limit text fuel t c)
      (parseIf ⟨limit, text.finish⟩ depth t ts) := by
  obtain _ | fuel := fuel
  · omega
  rw [Walk.parseIf, parseIf]
  refine (parseCondition_follows h (by omega)).step fun v mid c₁ hmid h₁ => ?_
  refine (parseBlock_follows h₁ (by omega)).step fun body after c₂ hafter h₂ => ?_
  exact (parseElse_follows h₂ (by omega)).pause fun others rest c₃ _ h₃ => .ok ⟨rfl, h₃⟩
termination_by (ts.length, 1)

theorem parseElse_follows {fuel depth : Nat} {ts : List Token} {c : Cursor}
    (h : c.Stands text depth ts) (hfuel : 4 * ts.length < fuel) :
    FollowsPause text depth (Walk.parseElse limit text fuel c)
      (parseElse ⟨limit, text.finish⟩ depth ts) := by
  obtain _ | fuel := fuel
  · omega
  rw [Walk.parseElse]
  unfold parseElse
  split
  · simp only [List.length_cons] at hfuel
    refine .move (take?_hit h rfl) (.move (take?_hit h.next rfl) ?_)
    refine (enter_follows h.next.next).bind fun _ _ c₁ h₁ => ?_
    refine (parseIf_follows _ h₁ (by omega)).step fun s rest c₂ _ h₂ => ?_
    exact .move leave_stands (.ok ⟨rfl, h₂.higher⟩)
  · next hno =>
    rw [List.length_cons] at hfuel
    refine .move (take?_hit h rfl) (.move (take?_miss h.next hno) ?_)
    exact (parseBlock_follows h.next (by omega)).finish fun body rest c₁ _ h₁ => .ok ⟨rfl, h₁⟩
  · next hno => exact .move (take?_miss h hno) (.ok ⟨rfl, h⟩)
termination_by (ts.length, 0)

end

/-! ### Whole texts -/

theorem parseDefinition_follows (h : c.Stands text 0 ts) (hfuel : 4 * ts.length < fuel) :
    FollowsStep text 0 (Walk.parseDefinition limit text fuel c)
      (parseDefinition ⟨limit, text.finish⟩ ts) := by
  unfold Walk.parseDefinition
  refine (expectName_follows h).step fun name mid c₁ hmid h₁ => ?_
  refine (expectSymbol_follows h₁ .leftParen).step fun _ after c₂ hafter h₂ => ?_
  refine (parseArguments_follows h₂ (by omega)).step fun arguments beyond c₃ hbeyond h₃ => ?_
  dsimp only
  split
  · exact (parseBlock_follows h₃ (by omega)).step fun body rest c₄ _ h₄ => .ok ⟨rfl, h₄⟩
  · exact .failed _

/-- A whole text is read up to its end, and all levels are closed there. -/
theorem parseListing_follows {fuel : Nat} {ts : List Token} {c : Cursor} (h : c.Stands text 0 ts)
    (hfuel : 4 * ts.length + 2 < fuel) :
    Follows (fun v a c' => v = a ∧ c'.Stands text 0 []) (Walk.parseListing limit text fuel c)
      (parseListing ⟨limit, text.finish⟩ ts) := by
  match fuel, ts, h, hfuel with
  | 0, _, _, _ => omega
  | fuel + 1, [], h, _ =>
    rw [Walk.parseListing, parseListing]
    refine .move (look_stands h) ?_
    exact .ok ⟨rfl, h⟩
  | fuel + 1, t :: ts, h, hfuel =>
    rw [Walk.parseListing, parseListing]
    refine .move (look_stands h) ?_
    rw [List.length_cons] at hfuel
    dsimp only [List.head?_cons]
    by_cases hl : t.lexeme = .keyword .function ∨ t.lexeme = .keyword .void
    · rw [if_pos hl, if_pos hl]
      refine .move (advance_stands h) ?_
      refine (parseDefinition_follows h.next (by omega)).step fun d mid c₁ hmid h₁ => ?_
      exact (parseListing_follows h₁ (by omega)).stay fun later c₂ h₂ => .ok ⟨rfl, h₂⟩
    · rw [if_neg hl, if_neg hl]
      refine (parseStatement_follows h ?_).step fun s mid c₁ hmid h₁ => ?_
      · rw [List.length_cons]
        omega
      have hshorter : mid.length < ts.length + 1 := hmid
      exact (parseListing_follows h₁ (by omega)).stay fun later c₂ h₂ => .ok ⟨rfl, h₂⟩
termination_by ts.length

end

/-! ### Each walk ends inside the text -/

namespace Walk

variable {α β : Type} {limit : Nat} {text : TokenList} {extra : Nat} {moved : Nat → Nat → Prop}

/-- From each place inside a text a walk comes to an end, with one and the same outcome however deep
its calls may be nested, if only there are four calls for each token that is left and some more.
Either there is nothing to be read; or its cursor has moved as it is said and is still inside the
text, and as many levels are open as before. -/
def Ends (text : TokenList) (extra : Nat) (moved : Nat → Nat → Prop) (w : Nat → Walk α) : Prop :=
  ∀ c : Cursor, c.index ≤ text.tokens.length → ∃ outcome : Except Halt (α × Cursor),
    (∀ fuel, 4 * (text.tokens.length - c.index) + extra < fuel → w fuel c = some outcome) ∧
    ((∃ f : Failure, outcome = .error (.failed f)) ∨
      ∃ a c', outcome = .ok (a, c') ∧ moved c.index c'.index ∧
        c'.index ≤ text.tokens.length ∧ c'.depth = c.depth)

/-- All walks that read a part of a text come to their ends. -/
structure AllEnd (limit : Nat) (text : TokenList) : Prop where
  moreArguments : Ends text 0 (· < ·) (parseMoreArguments text)
  arguments : Ends text 0 (· < ·) (parseArguments text)
  call : Ends text 0 (· < ·) (parseCall text)
  or : Ends text 3 (· < ·) (parseOr limit text)
  orMore : ∀ left, Ends text 0 (· ≤ ·) fun fuel => parseOrMore limit text fuel left
  and : Ends text 2 (· < ·) (parseAnd limit text)
  andMore : ∀ left, Ends text 0 (· ≤ ·) fun fuel => parseAndMore limit text fuel left
  unary : Ends text 1 (· < ·) (parseUnary limit text)
  condition : Ends text 0 (· < ·) (parseCondition limit text)
  count : ∀ t, Ends text 0 (· < ·) fun fuel => parseCount text fuel t
  block : Ends text 0 (· < ·) (parseBlock limit text)
  body : Ends text 2 (· < ·) (parseBody limit text)
  statement : Ends text 1 (· < ·) (parseStatement limit text)
  repeatLoop : ∀ t, Ends text 1 (· < ·) fun fuel => parseRepeat limit text fuel t
  ifElse : ∀ t, Ends text 1 (· < ·) fun fuel => parseIf limit text fuel t
  elsePart : Ends text 0 (· ≤ ·) (parseElse limit text)
  definition : Ends text 0 (· < ·) (parseDefinition limit text)

/-- The cursor of a walk that follows a reading has moved as the rest of the reading tells. -/
theorem ends_of_follows {δ : List Token → Type} {w : Nat → Walk α}
    {value : {ts : List Token} → δ ts → α} {rest : {ts : List Token} → δ ts → List Token}
    {x : (depth : Nat) → (ts : List Token) → Except Failure (δ ts)}
    (hmoved : ∀ {ts} (s : δ ts) {i j : Nat}, ts.length + i = (rest s).length + j → moved i j)
    (h : ∀ {fuel depth ts c}, Cursor.Stands text depth ts c → 4 * ts.length + extra < fuel →
      Follows (fun s a c' => value s = a ∧ c'.Stands text depth (rest s)) (w fuel c)
        (x depth ts)) :
    Ends text extra moved w := by
  intro c hc
  have hstands : c.Stands text c.depth (text.tokens.drop c.index) := ⟨rfl, hc, rfl⟩
  have hfollows {fuel : Nat} (hfuel : 4 * (text.tokens.length - c.index) + extra < fuel) :=
    h hstands (List.length_drop ▸ hfuel)
  generalize x _ _ = reading at hfollows
  cases reading with
  | error f =>
    refine ⟨.error (.failed f), fun fuel hfuel => ?_, .inl ⟨f, rfl⟩⟩
    have hwalk := hfollows hfuel
    generalize w fuel c = outcome at hwalk
    cases hwalk
    rfl
  | ok s =>
    -- with just enough calls the walk finds where the cursor is to stand
    obtain ⟨c', hc'⟩ : ∃ c' : Cursor, c'.Stands text c.depth (rest s) := by
      have hfirst := hfollows (Nat.lt_succ_self _)
      generalize w _ c = outcome at hfirst
      cases hfirst with
      | ok hagree => exact ⟨_, hagree.2⟩
    have hlength := hstands.length_add_index.trans hc'.length_add_index.symm
    refine ⟨.ok (value s, c'), fun fuel hfuel => ?_,
      .inr ⟨_, c', rfl, hmoved s hlength, hc'.inside, hc'.levels⟩⟩
    have hwalk := hfollows hfuel
    generalize w fuel c = outcome at hwalk
    cases hwalk with
    | ok hagree => rw [← hagree.1, hagree.2.unique hc']

theorem ends_of_step {w : Nat → Walk α} {x : (depth : Nat) → (ts : List Token) → Reading α ts}
    (h : ∀ {fuel depth ts c}, Cursor.Stands text depth ts c → 4 * ts.length + extra < fuel →
      FollowsStep text depth (w fuel c) (x depth ts)) : Ends text extra (· < ·) w := by
  refine ends_of_follows (fun s i j hij => ?_) h
  have hshorter := s.rest_lt
  omega

theorem ends_of_pause {w : Nat → Walk α}
    {x : (depth : Nat) → (ts : List Token) → Except Failure (Pause α ts)}
    (h : ∀ {fuel depth ts c}, Cursor.Stands text depth ts c → 4 * ts.length + extra < fuel →
      FollowsPause text depth (w fuel c) (x depth ts)) : Ends text extra (· ≤ ·) w := by
  refine ends_of_follows (fun s i j hij => ?_) h
  have hshorter := s.rest_le
  omega

namespace Ends

theorem pure (v : α) : Ends text extra (· ≤ ·) fun _ => (pure v : Walk α) :=
  fun c hc => ⟨.ok (v, c), fun _ _ => rfl, .inr ⟨v, c, rfl, Nat.le_refl _, hc, rfl⟩⟩

theorem throw (f : Failure) :
    Ends text extra (· ≤ ·) fun _ => (throw (.failed f) : Walk α) :=
  fun _ _ => ⟨.error (.failed f), fun _ _ => rfl, .inl ⟨f, rfl⟩⟩

theorem weaken {w : Nat → Walk α} (h : Ends text extra (· < ·) w) :
    Ends text extra (· ≤ ·) w := by
  intro c hc
  obtain ⟨outcome, hw, hfailed | ⟨a, c', ha, hlt, hrest⟩⟩ := h c hc
  · exact ⟨outcome, hw, .inl hfailed⟩
  · exact ⟨outcome, hw, .inr ⟨a, c', ha, Nat.le_of_lt hlt, hrest⟩⟩

theorem bind {w : Nat → Walk α} {k : Nat → α → Walk β} (h : Ends text extra (· < ·) w)
    (hk : ∀ a, Ends text extra (· ≤ ·) fun fuel => k fuel a) :
    Ends text extra (· < ·) fun fuel => w fuel >>= k fuel := by
  intro c hc
  obtain ⟨_, hw, ⟨f, rfl⟩ | ⟨a, c₁, rfl, hlt, hinside, hdepth⟩⟩ := h c hc
  · exact ⟨_, fun fuel hfuel => bind_failed (hw fuel hfuel), .inl ⟨f, rfl⟩⟩
  · obtain ⟨outcome, hw', hends⟩ := hk a c₁ hinside
    refine ⟨outcome, fun fuel hfuel => ?_, ?_⟩
    · -- fewer tokens are left, so the calls are enough for the second walk as well
      exact (bind_ok (hw fuel hfuel)).trans (hw' fuel (by omega))
    · obtain ⟨f, rfl⟩ | ⟨b, c₂, rfl, hle, hinside', hdepth'⟩ := hends
      · exact .inl ⟨f, rfl⟩
      · exact .inr ⟨b, c₂, rfl, Nat.lt_of_lt_of_le hlt hle, hinside', hdepth'.trans hdepth⟩

/-- A call takes one of the calls that are left. -/
theorem call {v w : Nat → Walk α} (h : Ends text extra moved w)
    (hv : ∀ fuel, v (fuel + 1) = w fuel) : Ends text (extra + 1) moved v := by
  intro c hc
  obtain ⟨outcome, hw, hends⟩ := h c hc
  refine ⟨outcome, fun fuel hfuel => ?_, hends⟩
  obtain _ | fuel := fuel
  · omega
  · rw [hv, hw fuel (by omega)]

end Ends

section

variable (limit text)

theorem expectName_ends : Ends text 0 (· < ·) fun _ => expectName text :=
  ends_of_step (x := fun _ => Source.expectName ⟨0, text.finish⟩) fun h _ => expectName_follows h

theorem expectLexeme_ends (l : Lexeme) : Ends text 0 (· < ·) fun _ => expectLexeme text l :=
  ends_of_step (x := fun _ => Source.expectLexeme ⟨0, text.finish⟩ l)
    fun h _ => expectLexeme_follows h l

theorem parseArguments_ends : Ends text 0 (· < ·) (parseArguments text) :=
  ends_of_step (x := fun _ => Source.parseArguments ⟨0, text.finish⟩) parseArguments_follows

theorem parseCount_ends (t : Token) : Ends text 0 (· < ·) fun fuel => parseCount text fuel t :=
  ends_of_step (x := fun _ => Source.parseCount ⟨0, text.finish⟩ t) parseCount_follows

theorem parseBlock_ends : Ends text 0 (· < ·) (parseBlock limit text) :=
  ends_of_step parseBlock_follows

theorem parseRepeat_ends (t : Token) :
    Ends text 1 (· < ·) fun fuel => parseRepeat limit text fuel t := by
  refine Ends.call ?_ fun fuel => parseRepeat.eq_2 limit text t fuel
  refine (parseCount_ends text t).bind fun count => ?_
  exact ((parseBlock_ends limit text).bind fun body => .pure _).weaken

/-- As far as its cursor and its levels are concerned, a definition may be read at any depth. -/
theorem parseDefinition_ends : Ends text 0 (· < ·) (parseDefinition limit text) := by
  unfold parseDefinition
  refine (expectName_ends text).bind fun name => ?_
  refine ((expectLexeme_ends text _).bind fun _ => ?_).weaken
  refine ((parseArguments_ends text).bind fun arguments => ?_).weaken
  split
  · exact ((parseBlock_ends limit text).bind fun body => .pure _).weaken
  · exact .throw _

theorem allEnd : AllEnd limit text where
  moreArguments :=
    ends_of_step (x := fun _ => Source.parseMoreArguments ⟨0, text.finish⟩)
      parseMoreArguments_follows
  arguments := parseArguments_ends text
  call := ends_of_step (x := fun _ => Source.parseCall ⟨0, text.finish⟩) parseCall_follows
  or := ends_of_step parseOr_follows
  orMore left := ends_of_pause (parseOrMore_follows left)
  and := ends_of_step parseAnd_follows
  andMore left := ends_of_pause (parseAndMore_follows left)
  unary := ends_of_step parseUnary_follows
  condition := ends_of_step parseCondition_follows
  count := parseCount_ends text
  block := parseBlock_ends limit text
  body := ends_of_step parseBody_follows
  statement := ends_of_step parseStatement_follows
  repeatLoop := parseRepeat_ends limit text
  ifElse t := ends_of_step (parseIf_follows t)
  elsePart := ends_of_pause parseElse_follows
  definition := parseDefinition_ends limit text

end

/-- From the start of a text the walk finds the listing, or the failure, that reading it yields. -/
theorem parseListing_start (limit : Nat) (text : TokenList) {fuel : Nat}
    (hfuel : 4 * text.tokens.length + 2 < fuel) :
    parseListing limit text fuel ⟨0, 0⟩ =
      some (match parse limit text with
        | .ok listing => .ok (listing, ⟨text.tokens.length, 0⟩)
        | .error f => .error (.failed f)) := by
  have hstart : Cursor.Stands text 0 text.tokens ⟨0, 0⟩ := ⟨rfl, Nat.zero_le _, rfl⟩
  have hfinish : Cursor.Stands text 0 [] ⟨text.tokens.length, 0⟩ :=
    ⟨List.drop_length, Nat.le_refl _, rfl⟩
  have hfollows : Follows (fun v a c => v = a ∧ c.Stands text 0 [])
      (parseListing limit text fuel ⟨0, 0⟩)
      (Source.parseListing ⟨limit, text.finish⟩ text.tokens) :=
    parseListing_follows hstart hfuel
  unfold parse
  generalize parseListing limit text fuel ⟨0, 0⟩ = outcome, Source.parseListing _ _ = reading
    at hfollows ⊢
  cases hfollows with
  | failed f => rfl
  | ok hagree => rw [← hagree.1, hagree.2.unique hfinish]

end Walk

/-- Every walk over the tokens of a text comes to an end, and it reads nothing beyond the end of the
text: it finds no tree and says why, or its cursor has moved forward inside the text, and the levels
that were opened are closed. So the walk through a whole text ends at the end of the text, with the
listing that is read from it, or it fails as the reading does. How deep its calls are nested is
bounded by the number of tokens that are left. -/
theorem walk_ends (limit : Nat) (text : TokenList) :
    Walk.AllEnd limit text ∧
    ∀ more, Walk.parseListing limit text (4 * text.tokens.length + 3 + more) ⟨0, 0⟩ =
      some (match parse limit text with
        | .ok listing => .ok (listing, ⟨text.tokens.length, 0⟩)
        | .error f => .error (.failed f)) :=
  ⟨Walk.allEnd limit text, fun _ => Walk.parseListing_start limit text (by omega)⟩

end GridRobot.Source
