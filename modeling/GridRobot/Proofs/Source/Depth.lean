import GridRobot.Proofs.Source.Placed
import GridRobot.Proofs.Source.Soundness

/-!
# Greater nesting limits

A nesting limit turns texts away and does nothing else. A text that is read within a limit is read
as the same tree within every greater limit, and a text that is turned away for another reason than
its depth is turned away for the same reason at the same place. And every text has room within some
limit: within its number of tokens.

Two readings of the same tokens within two limits are followed side by side. For each reading
function it is said that the greater limit makes no difference unless the smaller one is exceeded,
and how much room is enough for it not to be. Each open level has a token of its own, and so has
each operator of a condition; therefore the levels that are open and the tokens that are left are
together never more than the tokens there were.

## Main definitions

* `CompileError.TooDeep` says that an error is about the depth of a text.
* `Bounds.Within` says that bounds differ at most in that the second ones have the greater limit.
* `Filtered` relates the outcome within a limit to the outcome within a greater one.

## Main statements

* `OrText.height_lt`: a condition is not higher than it has tokens.
* `parseOr_filtered`, `parseStatement_filtered`: one tree is read within two limits.
* `parse_filtered`: so is a whole text.
* `compile_filtered`: a limit is a filter, and there is a limit that lets everything through.
-/

namespace GridRobot.Source

/-- The error is that a text nests too deep. -/
def CompileError.TooDeep (e : CompileError) : Prop :=
  ∃ limit, e.cause = .nestingTooDeep limit

/-- The text is refused because it nests too deep. -/
def Refusal.TooDeep (r : Refusal) : Prop :=
  ∃ e : CompileError, r = .error e ∧ e.TooDeep

/-- The reading fails because the text nests too deep. -/
def Deep {α : Type} (x : Except Failure α) : Prop :=
  ∃ e : CompileError, x = .error (.error e) ∧ e.TooDeep

/-- The texts end at the same place, and the second bounds let through all that the first ones do. -/
structure Bounds.Within (b b' : Bounds) : Prop where
  limit : b.limit ≤ b'.limit
  finish : b.finish = b'.finish

/-- The outcome `x` within a limit and the outcome `y` within a greater one: where they differ, the
limit was exceeded, and with enough room it is not. -/
structure Filtered {α : Type} (room : Prop) (x y : Except Failure α) : Prop where
  deep_or_eq : Deep x ∨ y = x
  not_deep : room → ¬ Deep x

/-! ### One reading after the other -/

section

variable {α β : Type} {room room' : Prop} {x y : Except Failure α} {ts : List Token}

theorem deep_bind {f : α → Except Failure β} :
    Deep (x >>= f) ↔ Deep x ∨ ∃ a, x = .ok a ∧ Deep (f a) := by
  simp only [Deep, bind_eq_error]
  constructor
  · rintro ⟨e, hx | ⟨a, ha, hf⟩, he⟩
    · exact .inl ⟨e, hx, he⟩
    · exact .inr ⟨a, ha, e, hf, he⟩
  · rintro (⟨e, hx, he⟩ | ⟨a, ha, e, hf, he⟩)
    · exact ⟨e, .inl hx, he⟩
    · exact ⟨e, .inr ⟨a, ha, hf⟩, he⟩

theorem not_deep_ok {v : α} : ¬ Deep (.ok v : Except Failure α) := by
  rintro ⟨e, h, -⟩
  cases h

namespace Filtered

theorem ok (v : α) : Filtered room (.ok v : Except Failure α) (.ok v) :=
  ⟨.inr rfl, fun _ => not_deep_ok⟩

theorem error {f : Failure} (h : ∀ e, f = .error e → ¬ e.TooDeep) :
    Filtered room (.error f : Except Failure α) (.error f) := by
  refine ⟨.inr rfl, ?_⟩
  rintro - ⟨e, hf, he⟩
  exact h e (Except.error.inj hf) he

/-- More room is enough as well. -/
theorem mono (h : Filtered room' x y) (hroom : room → room') : Filtered room x y :=
  ⟨h.deep_or_eq, fun hr => h.not_deep (hroom hr)⟩

theorem bind (h : Filtered room x y) {f g : α → Except Failure β}
    (hfg : ∀ a, x = .ok a → Filtered room (f a) (g a)) : Filtered room (x >>= f) (y >>= g) := by
  constructor
  · rcases h.deep_or_eq with hdeep | rfl
    · exact .inl (deep_bind.2 (.inl hdeep))
    · cases y with
      | error e => exact .inr rfl
      | ok a => exact (hfg a rfl).deep_or_eq
  · intro hroom hdeep
    rcases deep_bind.1 hdeep with hx | ⟨a, ha, hf⟩
    · exact h.not_deep hroom hx
    · exact (hfg a ha).not_deep hroom hf

/-- What is read further is a rest that a tree has left. -/
theorem step {x y : Reading α ts} (h : Filtered room x y) {f g : Step α ts → Except Failure β}
    (hfg : ∀ v rest (hread : Reads x v rest),
      Filtered room (f ⟨v, rest, hread.rest_lt⟩) (g ⟨v, rest, hread.rest_lt⟩)) :
    Filtered room (x >>= f) (y >>= g) :=
  h.bind fun s hs => hfg s.value s.rest ⟨s.rest_lt, hs⟩

theorem pause {x y : Except Failure (Pause α ts)} (h : Filtered room x y)
    {f g : Pause α ts → Except Failure β}
    (hfg : ∀ v rest (hread : Pauses x v rest),
      Filtered room (f ⟨v, rest, hread.rest_le⟩) (g ⟨v, rest, hread.rest_le⟩)) :
    Filtered room (x >>= f) (y >>= g) :=
  h.bind fun s hs => hfg s.value s.rest ⟨s.rest_le, hs⟩

end Filtered

end

/-! ### Single tokens and calls -/

variable {α : Type} {room : Prop} {b b' : Bounds} {ts rest : List Token} {t : Token}

theorem failHere_filtered (hb : b.Within b') {cause : Option Lexeme → Cause}
    (hcause : ∀ found limit, cause found ≠ .nestingTooDeep limit) :
    Filtered room (failHere b ts cause : Except Failure α) (failHere b' ts cause) := by
  cases ts with
  | nil =>
    unfold failHere
    rw [hb.finish]
    refine .error ?_
    rintro _ ⟨⟩ ⟨limit, h⟩
    exact hcause _ limit h
  | cons t ts =>
    refine .error ?_
    rintro _ ⟨⟩ ⟨limit, h⟩
    exact hcause _ limit h

theorem failAt_filtered {cause : Cause} (hcause : ∀ limit, cause ≠ .nestingTooDeep limit) :
    Filtered room (failAt t cause : Except Failure α) (failAt t cause) := by
  refine .error ?_
  rintro _ ⟨⟩ ⟨limit, h⟩
  exact hcause limit h

/-- The one place at which a limit is looked at. -/
theorem checkLevels_filtered (hb : b.Within b') {levels : Nat} (hroom : room → levels ≤ b.limit) :
    Filtered room (checkLevels b levels t) (checkLevels b' levels t) := by
  unfold checkLevels
  by_cases hlevels : levels ≤ b.limit
  · rw [if_pos hlevels, if_pos (Nat.le_trans hlevels hb.limit)]
    exact .ok _
  · rw [if_neg hlevels]
    exact ⟨.inl ⟨_, rfl, b.limit, rfl⟩, fun hr => absurd (hroom hr) hlevels⟩

theorem expectLexeme_filtered (hb : b.Within b') (l : Lexeme) :
    Filtered room (expectLexeme b l ts) (expectLexeme b' l ts) := by
  unfold expectLexeme
  split
  · exact failHere_filtered hb (by simp)
  · split
    · exact .ok _
    · exact failHere_filtered hb (by simp)

theorem expectSymbol_filtered (hb : b.Within b') (s : Symbol) :
    Filtered room (expectSymbol b s ts) (expectSymbol b' s ts) :=
  expectLexeme_filtered hb (.symbol s)

theorem expectName_filtered (hb : b.Within b') :
    Filtered room (expectName b ts) (expectName b' ts) := by
  unfold expectName
  split
  · exact .ok _
  · exact failHere_filtered hb (by simp)

theorem parseArgument_filtered (hb : b.Within b') :
    Filtered room (parseArgument b ts) (parseArgument b' ts) := by
  unfold parseArgument
  split
  · exact .ok _
  · exact .ok _
  · exact failHere_filtered hb (by simp)

theorem parseMoreArguments_filtered (hb : b.Within b') (ts : List Token) :
    Filtered room (parseMoreArguments b ts) (parseMoreArguments b' ts) := by
  rw [parseMoreArguments, parseMoreArguments]
  refine (parseArgument_filtered hb).step fun first mid hfirst => ?_
  have hmid := hfirst.rest_lt
  dsimp only
  split
  · exact .ok _
  · refine (expectSymbol_filtered hb .comma).step fun _ after hcomma => ?_
    have hafter := hcomma.rest_lt
    exact (parseMoreArguments_filtered hb after).step fun others beyond _ => .ok _
termination_by ts.length

theorem parseArguments_filtered (hb : b.Within b') :
    Filtered room (parseArguments b ts) (parseArguments b' ts) := by
  unfold parseArguments
  split
  · exact .ok _
  · exact parseMoreArguments_filtered hb _

theorem parseCall_filtered (hb : b.Within b') :
    Filtered room (parseCall b ts) (parseCall b' ts) := by
  refine (expectName_filtered hb).step fun name mid _ => ?_
  refine (expectSymbol_filtered hb .leftParen).step fun _ after _ => ?_
  exact (parseArguments_filtered hb).step fun arguments beyond _ => .ok _

/-! ### Conditions -/

mutual

/-- Each operator of a condition has a token of its own, and there is a token besides. -/
theorem OrText.height_lt {ts rest : List Token} {c : Condition} {n : Nat} (h : OrText ts c n rest) :
    c.height + rest.length < ts.length := by
  match h with
  | .one hand => exact hand.height_lt
  | .more hleft hright =>
    have hl := hleft.height_lt
    have hr := hright.height_lt
    simp only [Condition.height, List.length_cons] at hl ⊢
    omega
termination_by structural h

theorem AndText.height_lt {ts rest : List Token} {c : Condition} {n : Nat}
    (h : AndText ts c n rest) : c.height + rest.length < ts.length := by
  match h with
  | .one hunary => exact hunary.height_lt
  | .more hleft hright =>
    have hl := hleft.height_lt
    have hr := hright.height_lt
    simp only [Condition.height, List.length_cons] at hl ⊢
    omega
termination_by structural h

theorem UnaryText.height_lt {ts rest : List Token} {c : Condition} {n : Nat}
    (h : UnaryText ts c n rest) : c.height + rest.length < ts.length := by
  match h with
  | .bang hoperand =>
    have hc := hoperand.height_lt
    simp only [Condition.height, List.length_cons]
    omega
  | .group hinner =>
    have hc := hinner.height_lt
    simp only [List.length_cons] at hc ⊢
    omega
  | .call hcall =>
    obtain ⟨hargs⟩ := hcall
    have hlength := hargs.suffix.length_le
    simp only [Condition.height, List.length_cons] at hlength ⊢
    omega
termination_by structural h

end

theorem connect_filtered (hb : b.Within b') {op : Connective} {left right : Condition}
    (hroom : room → 1 + max left.height right.height ≤ b.limit) :
    Filtered room (connect b op left right t) (connect b' op left right t) := by
  unfold connect
  exact (checkLevels_filtered hb hroom).bind fun _ _ => .ok _

mutual

theorem parseOr_filtered (hb : b.Within b') (depth : Nat) (ts : List Token) :
    Filtered (depth + ts.length ≤ b.limit) (parseOr b depth ts) (parseOr b' depth ts) := by
  rw [parseOr, parseOr]
  refine (parseAnd_filtered hb depth ts).step fun left mid hleft => ?_
  have hmid := hleft.rest_lt
  refine ((parseOrMore_filtered hb depth left mid).mono fun hroom => ?_).pause
    fun c rest _ => .ok _
  obtain ⟨n, htext, -⟩ := andText_of_reads (by omega) hleft
  have hheight := htext.height_lt
  omega
termination_by (ts.length, 3)

theorem parseOrMore_filtered (hb : b.Within b') (depth : Nat) (left : Condition)
    (ts : List Token) :
    Filtered (depth + ts.length ≤ b.limit ∧ left.height + ts.length ≤ b.limit)
      (parseOrMore b depth left ts) (parseOrMore b' depth left ts) := by
  cases ts with
  | nil =>
    rw [parseOrMore, parseOrMore]
    exact .ok _
  | cons t ts =>
    rw [parseOrMore, parseOrMore]
    simp only [List.length_cons]
    split
    · refine ((parseAnd_filtered hb depth ts).mono fun hroom => by omega).step
        fun right after hright => ?_
      have hafter := hright.rest_lt
      have hheight (hroom : depth + (ts.length + 1) ≤ b.limit) :
          right.height + after.length < ts.length := by
        obtain ⟨n, htext, -⟩ := andText_of_reads (by omega) hright
        exact htext.height_lt
      refine (connect_filtered hb fun hroom => ?_).bind fun both hboth => ?_
      · have hr := hheight hroom.1
        show 1 + max left.height right.height ≤ b.limit
        omega
      · obtain ⟨rfl, -⟩ := connect_ok.1 hboth
        refine ((parseOrMore_filtered hb depth _ after).mono fun hroom => ?_).pause
          fun c rest _ => .ok _
        have hr := hheight hroom.1
        simp only [Condition.height]
        omega
    · exact .ok _
termination_by (ts.length, 0)

theorem parseAnd_filtered (hb : b.Within b') (depth : Nat) (ts : List Token) :
    Filtered (depth + ts.length ≤ b.limit) (parseAnd b depth ts) (parseAnd b' depth ts) := by
  rw [parseAnd, parseAnd]
  refine (parseUnary_filtered hb depth ts).step fun left mid hleft => ?_
  have hmid := hleft.rest_lt
  refine ((parseAndMore_filtered hb depth left mid).mono fun hroom => ?_).pause
    fun c rest _ => .ok _
  obtain ⟨n, htext, -⟩ := unaryText_of_reads (by omega) hleft
  have hheight := htext.height_lt
  omega
termination_by (ts.length, 2)

theorem parseAndMore_filtered (hb : b.Within b') (depth : Nat) (left : Condition)
    (ts : List Token) :
    Filtered (depth + ts.length ≤ b.limit ∧ left.height + ts.length ≤ b.limit)
      (parseAndMore b depth left ts) (parseAndMore b' depth left ts) := by
  cases ts with
  | nil =>
    rw [parseAndMore, parseAndMore]
    exact .ok _
  | cons t ts =>
    rw [parseAndMore, parseAndMore]
    simp only [List.length_cons]
    split
    · refine ((parseUnary_filtered hb depth ts).mono fun hroom => by omega).step
        fun right after hright => ?_
      have hafter := hright.rest_lt
      have hheight (hroom : depth + (ts.length + 1) ≤ b.limit) :
          right.height + after.length < ts.length := by
        obtain ⟨n, htext, -⟩ := unaryText_of_reads (by omega) hright
        exact htext.height_lt
      refine (connect_filtered hb fun hroom => ?_).bind fun both hboth => ?_
      · have hr := hheight hroom.1
        show 1 + max left.height right.height ≤ b.limit
        omega
      · obtain ⟨rfl, -⟩ := connect_ok.1 hboth
        refine ((parseAndMore_filtered hb depth _ after).mono fun hroom => ?_).pause
          fun c rest _ => .ok _
        have hr := hheight hroom.1
        simp only [Condition.height]
        omega
    · exact .ok _
termination_by (ts.length, 0)

theorem parseUnary_filtered (hb : b.Within b') (depth : Nat) (ts : List Token) :
    Filtered (depth + ts.length ≤ b.limit) (parseUnary b depth ts) (parseUnary b' depth ts) := by
  cases ts with
  | nil =>
    rw [parseUnary, parseUnary]
    exact failHere_filtered hb (by simp)
  | cons t ts =>
    rw [parseUnary, parseUnary]
    simp only [List.length_cons]
    split
    · refine (checkLevels_filtered hb fun hroom => by omega).bind fun _ _ => ?_
      refine ((parseUnary_filtered hb (depth + 1) ts).mono fun hroom => by omega).step
        fun operand after hoperand => ?_
      refine (checkLevels_filtered hb fun hroom => ?_).bind fun _ _ => .ok _
      obtain ⟨n, htext, -⟩ := unaryText_of_reads (by omega) hoperand
      have hheight := htext.height_lt
      simp only [Condition.height]
      omega
    · refine (checkLevels_filtered hb fun hroom => by omega).bind fun _ _ => ?_
      refine ((parseOr_filtered hb (depth + 1) ts).mono fun hroom => by omega).step
        fun inner after _ => ?_
      exact (expectSymbol_filtered hb .rightParen).step fun _ beyond _ => .ok _
    · exact (parseCall_filtered hb).step fun call after _ => .ok _
    · exact failHere_filtered hb (by simp)
termination_by (ts.length, 1)

end

theorem parseCondition_filtered (hb : b.Within b') (depth : Nat) (ts : List Token) :
    Filtered (depth + ts.length ≤ b.limit) (parseCondition b depth ts)
      (parseCondition b' depth ts) := by
  refine (expectSymbol_filtered hb .leftParen).step fun _ mid hparen => ?_
  have hmid := hparen.rest_lt
  refine ((parseOr_filtered hb depth mid).mono fun hroom => by omega).step fun c after _ => ?_
  exact (expectSymbol_filtered hb .rightParen).step fun _ beyond _ => .ok _

/-! ### Statements -/

theorem parseCount_filtered (hb : b.Within b') :
    Filtered room (parseCount b t ts) (parseCount b' t ts) := by
  refine (expectSymbol_filtered hb .leftParen).step fun _ mid _ => ?_
  refine (parseArguments_filtered hb).step fun arguments after _ => ?_
  dsimp only
  split
  · split
    · exact .ok _
    · refine .error fun e he => ?_
      cases he
  · exact failAt_filtered (by simp)
  · exact failAt_filtered (by simp)

mutual

theorem parseBlock_filtered (hb : b.Within b') (depth : Nat) (ts : List Token) :
    Filtered (depth + ts.length ≤ b.limit) (parseBlock b depth ts) (parseBlock b' depth ts) := by
  rw [parseBlock, parseBlock]
  refine (expectSymbol_filtered hb .leftBrace).step fun brace mid hbrace => ?_
  have hmid := hbrace.rest_lt
  refine (checkLevels_filtered hb fun hroom => by omega).bind fun _ _ => ?_
  exact ((parseBody_filtered hb (depth + 1) mid).mono fun hroom => by omega).step
    fun body after _ => .ok _
termination_by (ts.length, 0)

theorem parseBody_filtered (hb : b.Within b') (depth : Nat) (ts : List Token) :
    Filtered (depth + ts.length ≤ b.limit) (parseBody b depth ts) (parseBody b' depth ts) := by
  cases ts with
  | nil =>
    rw [parseBody, parseBody]
    exact failHere_filtered hb (by simp)
  | cons t ts =>
    rw [parseBody, parseBody]
    split
    · exact .ok _
    · refine (parseStatement_filtered hb depth (t :: ts)).step fun first mid hfirst => ?_
      have hmid := hfirst.rest_lt
      exact ((parseBody_filtered hb depth mid).mono fun hroom => by omega).step
        fun others rest _ => .ok _
termination_by (ts.length, 1)

theorem parseStatement_filtered (hb : b.Within b') (depth : Nat) (ts : List Token) :
    Filtered (depth + ts.length ≤ b.limit) (parseStatement b depth ts)
      (parseStatement b' depth ts) := by
  cases ts with
  | nil =>
    rw [parseStatement, parseStatement]
    exact failHere_filtered hb (by simp)
  | cons t ts =>
    rw [parseStatement, parseStatement]
    simp only [List.length_cons]
    split
    · exact .ok _
    · exact ((parseIf_filtered hb depth t ts).mono fun hroom => by omega).step
        fun s after _ => .ok _
    · refine ((parseCondition_filtered hb depth ts).mono fun hroom => by omega).step
        fun c mid hc => ?_
      have hmid := hc.rest_lt
      exact ((parseBlock_filtered hb depth mid).mono fun hroom => by omega).step
        fun body rest _ => .ok _
    · refine ((parseBlock_filtered hb depth ts).mono fun hroom => by omega).step
        fun body mid hbody => ?_
      have hmid := hbody.rest_lt
      refine (expectLexeme_filtered hb (.keyword .whileWord)).step fun _ after hwhile => ?_
      have hafter : after.length < mid.length := hwhile.rest_lt
      refine ((parseCondition_filtered hb depth after).mono fun hroom => by omega).step
        fun c beyond _ => ?_
      exact (expectSymbol_filtered hb .semicolon).step fun _ rest _ => .ok _
    · refine (parseCount_filtered hb).step fun count mid hcount => ?_
      have hmid := hcount.rest_lt
      exact ((parseBlock_filtered hb depth mid).mono fun hroom => by omega).step
        fun body rest _ => .ok _
    · exact failAt_filtered (by simp)
    · exact failAt_filtered (by simp)
    · refine (parseCall_filtered hb).step fun call mid _ => ?_
      exact (expectSymbol_filtered hb .semicolon).step fun _ rest _ => .ok _
    · exact failHere_filtered hb (by simp)
termination_by (ts.length, 0)

theorem parseIf_filtered (hb : b.Within b') (depth : Nat) (t : Token) (ts : List Token) :
    Filtered (depth + ts.length ≤ b.limit) (parseIf b depth t ts) (parseIf b' depth t ts) := by
  rw [parseIf, parseIf]
  refine (parseCondition_filtered hb depth ts).step fun c mid hc => ?_
  have hmid := hc.rest_lt
  refine ((parseBlock_filtered hb depth mid).mono fun hroom => by omega).step
    fun body after hbody => ?_
  have hafter := hbody.rest_lt
  exact ((parseElse_filtered hb depth after).mono fun hroom => by omega).pause
    fun others rest _ => .ok _
termination_by (ts.length, 0)

theorem parseElse_filtered (hb : b.Within b') (depth : Nat) (ts : List Token) :
    Filtered (depth + ts.length ≤ b.limit) (parseElse b depth ts) (parseElse b' depth ts) := by
  unfold parseElse
  split
  · simp only [List.length_cons]
    refine (checkLevels_filtered hb fun hroom => by omega).bind fun _ _ => ?_
    exact ((parseIf_filtered hb (depth + 1) _ _).mono fun hroom => by omega).step
      fun s rest _ => .ok _
  · simp only [List.length_cons]
    exact ((parseBlock_filtered hb depth _).mono fun hroom => by omega).step
      fun body rest _ => .ok _
  · exact .ok _
termination_by (ts.length, 0)

end

/-! ### Texts -/

theorem parseDefinition_filtered (hb : b.Within b') (ts : List Token) :
    Filtered (ts.length ≤ b.limit) (parseDefinition b ts) (parseDefinition b' ts) := by
  refine (expectName_filtered hb).step fun name mid hname => ?_
  have hmid := hname.rest_lt
  refine (expectSymbol_filtered hb .leftParen).step fun _ after hparen => ?_
  have hafter : after.length < mid.length := hparen.rest_lt
  refine (parseArguments_filtered hb).step fun arguments beyond harguments => ?_
  have hbeyond : beyond.length < after.length := harguments.rest_lt
  dsimp only
  split
  · exact ((parseBlock_filtered hb 0 beyond).mono fun hroom => by omega).step
      fun body rest _ => .ok _
  · exact .error (by rintro _ ⟨⟩ ⟨limit, ⟨⟩⟩)

theorem parseListing_filtered (hb : b.Within b') (ts : List Token) :
    Filtered (ts.length ≤ b.limit) (parseListing b ts) (parseListing b' ts) := by
  cases ts with
  | nil =>
    rw [parseListing, parseListing]
    exact .ok _
  | cons t ts =>
    rw [parseListing, parseListing]
    simp only [List.length_cons]
    split
    · refine ((parseDefinition_filtered hb ts).mono fun hroom => by omega).step
        fun d mid hd => ?_
      have hmid := hd.rest_lt
      exact ((parseListing_filtered hb mid).mono fun hroom => by omega).bind fun later _ => .ok _
    · refine ((parseStatement_filtered hb 0 (t :: ts)).mono fun hroom => ?_).step
        fun s mid hs => ?_
      · rw [List.length_cons]
        omega
      have hmid : mid.length < ts.length + 1 := hs.rest_lt
      exact ((parseListing_filtered hb mid).mono fun hroom => by omega).bind fun later _ => .ok _
termination_by ts.length

/-- A limit only turns a text away, and not if there is a level for each token. -/
theorem parse_filtered {limit greater : Nat} (hlimit : limit ≤ greater) (text : TokenList) :
    Filtered (text.tokens.length ≤ limit) (parse limit text) (parse greater text) :=
  have hb : Bounds.Within ⟨limit, text.finish⟩ ⟨greater, text.finish⟩ := ⟨hlimit, rfl⟩
  parseListing_filtered hb text.tokens

/-! ### Cutting and binding know no depth -/

theorem tokenize_not_tooDeep {source : String} {e : CompileError}
    (h : tokenize source = .error e) : ¬ e.TooDeep := by
  obtain ⟨ts, cs, rest, cause, -, -, hstuck, -, rfl⟩ := ((tokenize_written source).2 e).1 h
  rintro ⟨limit, hcause⟩
  obtain rfl : cause = .nestingTooDeep limit := hcause
  cases hstuck

/-- No error of a stage is about the depth of the text. -/
def Shallow (x : Except CompileError α) : Prop :=
  ∀ e, x = .error e → ¬ e.TooDeep

section Shallow

variable {β : Type} (names : List String)

theorem shallow_ok (v : α) : Shallow (.ok v : Except CompileError α) := by
  intro e h
  cases h

theorem shallow_error {e : CompileError} (h : ∀ limit, e.cause ≠ .nestingTooDeep limit) :
    Shallow (.error e : Except CompileError α) := by
  rintro _ ⟨⟩ ⟨limit, hcause⟩
  exact h limit hcause

theorem shallow_located {position : Position} {cause : Cause}
    (h : ∀ limit, cause ≠ .nestingTooDeep limit) :
    Shallow (.error (.located position cause) : Except CompileError α) :=
  shallow_error h

theorem Shallow.bind {x : Except CompileError α} {f : α → Except CompileError β}
    (hx : Shallow x) (hf : ∀ a, Shallow (f a)) : Shallow (x >>= f) := by
  intro e h
  obtain hx' | ⟨a, -, hf'⟩ := bind_eq_error.1 h
  · exact hx e hx'
  · exact hf a e hf'

theorem checkDefinitions_shallow (seen : List String) (ds : List Definition) :
    Shallow (checkDefinitions seen ds) := by
  induction ds generalizing seen with
  | nil => exact shallow_ok _
  | cons d ds ih =>
    rw [checkDefinitions]
    split
    · exact shallow_located (by simp)
    · split
      · exact shallow_located (by simp)
      · exact ih _

theorem chooseEntry_shallow (loose : List Statement) : Shallow (chooseEntry names loose) := by
  unfold chooseEntry
  split
  · split
    · exact shallow_error (by simp)
    · exact shallow_ok _
  · split
    · exact shallow_ok _
    · exact shallow_error (by simp)

theorem checkArguments_shallow (c : Call) : Shallow (checkArguments c) := by
  unfold checkArguments
  split
  · exact shallow_ok _
  · exact shallow_located (by simp)

theorem bindCall_shallow (c : Call) : Shallow (bindCall names c) := by
  unfold bindCall
  split
  · exact (checkArguments_shallow c).bind fun _ => shallow_ok _
  · split
    · exact (checkArguments_shallow c).bind fun _ => shallow_ok _
    · split
      · exact shallow_located (by simp)
      · exact shallow_located (by simp)

theorem bindCondition_shallow (c : Condition) : Shallow (bindCondition names c) := by
  induction c with
  | call c =>
    rw [bindCondition, bindPredicate]
    split
    · exact (checkArguments_shallow c).bind fun _ => shallow_ok _
    · split
      · exact shallow_located (by simp)
      · exact shallow_located (by simp)
  | not operand line ih => exact ih.bind fun _ => shallow_ok _
  | binary op left right line ihl ihr =>
    refine ihl.bind fun l => ihr.bind fun r => ?_
    cases op with
    | both => exact shallow_ok _
    | either => exact shallow_ok _

mutual

theorem bindStatement_shallow (s : Statement) : Shallow (bindStatement names s) := by
  cases s with
  | call c => exact bindCall_shallow names c
  | ifElse c t e line =>
    refine (bindCondition_shallow names c).bind fun _ => ?_
    exact (bindBody_shallow t).bind fun _ => (bindBody_shallow e).bind fun _ => shallow_ok _
  | whileLoop c body line =>
    exact (bindCondition_shallow names c).bind fun _ =>
      (bindBody_shallow body).bind fun _ => shallow_ok _
  | doWhile body c line =>
    exact (bindBody_shallow body).bind fun _ =>
      (bindCondition_shallow names c).bind fun _ => shallow_ok _
  | repeatLoop count body line => exact (bindBody_shallow body).bind fun _ => shallow_ok _

theorem bindBody_shallow (body : List Statement) : Shallow (bindBody names body) := by
  cases body with
  | nil => exact shallow_ok _
  | cons s rest =>
    exact (bindStatement_shallow s).bind fun _ => (bindBody_shallow rest).bind fun _ => shallow_ok _

end

theorem bindDefinitions_shallow (ds : List Definition) : Shallow (bindDefinitions names ds) := by
  induction ds with
  | nil => exact shallow_ok _
  | cons d ds ih => exact (bindBody_shallow names d.body).bind fun _ => ih.bind fun _ => shallow_ok _

theorem bindLoose_shallow (loose : List Statement) : Shallow (bindLoose names loose) := by
  cases loose with
  | nil => exact shallow_ok _
  | cons first rest => exact (bindBody_shallow names (first :: rest)).bind fun _ => shallow_ok _

end Shallow

theorem bind_shallow (text : Listing) : Shallow (Source.bind text) := by
  refine (checkDefinitions_shallow [] text.definitions).bind fun _ => ?_
  refine (chooseEntry_shallow _ text.loose).bind fun _ => ?_
  refine (bindDefinitions_shallow _ text.definitions).bind fun _ => ?_
  exact (bindLoose_shallow _ text.loose).bind fun _ => shallow_ok _

/-! ### Compiling within two limits -/

section Compile

variable {limit greater : Int} {source : String}

theorem parseWithin_deep_or_eq (hlimit : 1 ≤ limit) (hgreater : limit ≤ greater)
    (text : TokenList) :
    (∃ r, parseWithin limit text = .error r ∧ r.TooDeep) ∨
      parseWithin greater text = parseWithin limit text := by
  unfold parseWithin
  rw [if_neg (by omega), if_neg (by omega)]
  have hle : limit.toNat ≤ greater.toNat := by omega
  rcases (parse_filtered hle text).deep_or_eq with ⟨e, hparse, he⟩ | heq
  · rw [hparse]
    exact .inl ⟨.error e, rfl, e, rfl, he⟩
  · rw [heq]
    exact .inr rfl

/-- A limit turns a text away, or makes no difference to a greater one. -/
theorem compile_deep_or_eq (hlimit : 1 ≤ limit) (hgreater : limit ≤ greater) (source : String) :
    (∃ r, compile limit source = .error r ∧ r.TooDeep) ∨
      compile greater source = compile limit source := by
  unfold compile
  cases (tokenize source).mapError Refusal.error with
  | error r => exact .inr rfl
  | ok text =>
    simp only [ok_bind]
    rcases parseWithin_deep_or_eq hlimit hgreater text with ⟨r, hparse, hr⟩ | heq
    · rw [hparse]
      exact .inl ⟨r, rfl, hr⟩
    · rw [heq]
      exact .inr rfl

/-- A text does not nest deeper than it has tokens. -/
theorem compile_not_tooDeep
    (hroom : ∀ text, tokenize source = .ok text → text.tokens.length ≤ limit.toNat)
    {r : Refusal} (h : compile limit source = .error r) : ¬ r.TooDeep := by
  rintro ⟨e, rfl, he⟩
  rcases compile_error_cases h with htext | ⟨text, htext, hparse | ⟨listing, -, hbind⟩⟩
  · exact tokenize_not_tooDeep htext he
  · exact (parse_filtered (Nat.le_refl _) text).not_deep (hroom text htext) ⟨e, hparse, he⟩
  · exact bind_shallow listing e hbind he

end Compile

/-- The nesting limit is a filter. A program that is compiled within a limit is compiled within every
greater one, and so is an error found unless it is about the depth of the text; and for every text
there is a limit from which on no error is about its depth. -/
theorem compile_filtered (source : String) :
    (∀ limit greater : Int, 1 ≤ limit → limit ≤ greater →
        (∀ p, compile limit source = .ok p → compile greater source = .ok p) ∧
          ∀ r, compile limit source = .error r → ¬ r.TooDeep →
            compile greater source = .error r) ∧
      ∃ enough : Int, 1 ≤ enough ∧ ∀ limit, enough ≤ limit →
        ∀ r, compile limit source = .error r → ¬ r.TooDeep := by
  constructor
  · intro limit greater hlimit hgreater
    rcases compile_deep_or_eq hlimit hgreater source with ⟨r, hr, hdeep⟩ | heq
    · rw [hr]
      refine ⟨nofun, ?_⟩
      rintro _ ⟨⟩ hshallow
      exact absurd hdeep hshallow
    · rw [heq]
      exact ⟨fun _ hp => hp, fun _ hr _ => hr⟩
  · cases htext : tokenize source with
    | error e =>
      refine ⟨1, Int.le_refl 1, fun limit _ r hr => compile_not_tooDeep ?_ hr⟩
      rw [htext]
      exact nofun
    | ok text =>
      refine ⟨text.tokens.length + 1, by omega, fun limit hlimit r hr => ?_⟩
      refine compile_not_tooDeep (fun text' htext' => ?_) hr
      rw [htext] at htext'
      cases htext'
      omega

/-- A text of two levels. -/
def fourMovesText : String :=
  "repeat (2) \x7brepeat (2) \x7bmove();\x7d\x7d"

/-- Its program. -/
def fourMoves : Program :=
  ⟨[⟨"main", [.repeatLoop 2 [.repeatLoop 2 [.action .move 1] 1] 1], 1⟩], "main"⟩

theorem compile_filtered_fourMoves :
    (∃ r, compile 1 fourMovesText = .error r ∧ r.TooDeep) ∧
      compile 2 fourMovesText = .ok fourMoves ∧ compile 3 fourMovesText = .ok fourMoves ∧
      ∃ e, compile 1 "move(" = .error (.error e) ∧ ¬ e.TooDeep ∧
        compile 9 "move(" = .error (.error e) := by
  have hdeep : compile 1 fourMovesText =
      .error (.error ⟨.nestingTooDeep 1, .position ⟨1, 24⟩⟩) := by cbv
  have hok : compile 2 fourMovesText = .ok fourMoves := by cbv
  have herror : compile 1 "move(" = .error (.error ⟨.badArgument none, .position ⟨1, 6⟩⟩) := by cbv
  have hkeep := ((compile_filtered fourMovesText).1 2 3 (by decide) (by decide)).1 _ hok
  have hshallow : ¬ (⟨.badArgument none, .position ⟨1, 6⟩⟩ : CompileError).TooDeep := by
    rintro ⟨limit, ⟨⟩⟩
  have hsame := ((compile_filtered "move(").1 1 9 (by decide) (by decide)).2 _ herror (by
    rintro ⟨_, ⟨⟩, h⟩
    exact hshallow h)
  exact ⟨⟨_, hdeep, _, rfl, 1, rfl⟩, hok, hkeep, _, herror, hshallow, hsame⟩

end GridRobot.Source
