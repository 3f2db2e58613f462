import GridRobot.Proofs.Source.Parser

/-!
# Counts that are too long

Most of what goes wrong in a reading is an error in the text. Only the count of a `repeat` can be a
number that is too long, and here it is said of each reading function where it meets one.

## Main definitions

* `Overruns` says that a reading meets a count that is too long.
* `StatementOverrun`, `ElseOverrun` and `ListingOverrun` tell apart where it does.

## Main statements

* `parseCondition_not_overruns`: there are no counts in conditions.
* `parseCount_overruns`: a count is too long when its digits are too many.
* `parseStatement_overruns`, `parseListing_overruns`: counts are met in these places.
-/

namespace GridRobot.Source

/-- The reading fails because of a count that is too long. -/
def Overruns {α : Type} (r : Except Failure α) : Prop :=
  r = .error .numberTooLong

variable {α β : Type} {b : Bounds} {depth : Nat} {ts rest : List Token} {t : Token}

theorem overruns_bind {x : Except Failure α} {f : α → Except Failure β} :
    Overruns (x >>= f) ↔ Overruns x ∨ ∃ a, x = .ok a ∧ Overruns (f a) :=
  bind_eq_error

@[simp] theorem not_overruns_ok {v : α} : ¬ Overruns (.ok v : Except Failure α) := nofun

@[simp] theorem not_overruns_error {e : CompileError} :
    ¬ Overruns (.error (.error e) : Except Failure α) := nofun

@[simp] theorem not_overruns_failHere {cause : Option Lexeme → Cause} :
    ¬ Overruns (failHere b ts cause : Except Failure α) := by
  cases ts <;> exact nofun

@[simp] theorem not_overruns_failAt {cause : Cause} :
    ¬ Overruns (failAt t cause : Except Failure α) := nofun

@[simp] theorem not_overruns_checkLevels {levels : Nat} : ¬ Overruns (checkLevels b levels t) := by
  unfold checkLevels
  split <;> simp

@[simp] theorem not_overruns_expectLexeme {l : Lexeme} : ¬ Overruns (expectLexeme b l ts) := by
  unfold expectLexeme
  split
  · simp
  · split <;> simp

@[simp] theorem not_overruns_expectSymbol {s : Symbol} : ¬ Overruns (expectSymbol b s ts) :=
  not_overruns_expectLexeme

@[simp] theorem not_overruns_expectName : ¬ Overruns (expectName b ts) := by
  unfold expectName
  split <;> simp

/-! ### Calls and conditions -/

@[simp] theorem not_overruns_parseArgument : ¬ Overruns (parseArgument b ts) := by
  unfold parseArgument
  split <;> simp

theorem not_overruns_parseMoreArguments (ts : List Token) :
    ¬ Overruns (parseMoreArguments b ts) := by
  rw [parseMoreArguments]
  simp only [overruns_bind, exists_step, not_overruns_parseArgument, false_or, not_exists]
  intro a mid ha
  -- an argument takes a token, and so the recursion ends
  have hmid := ha.rest_lt
  split
  · exact not_overruns_ok
  · simp only [overruns_bind, exists_step, not_overruns_expectSymbol, not_overruns_ok, false_or,
      or_false, not_exists, exists_prop, not_and, exists_false, and_false]
    intro s after hs
    have hafter := hs.rest_lt
    exact not_overruns_parseMoreArguments after
termination_by ts.length

@[simp] theorem not_overruns_parseArguments : ¬ Overruns (parseArguments b ts) := by
  unfold parseArguments
  split
  · exact not_overruns_ok
  · exact not_overruns_parseMoreArguments _

@[simp] theorem not_overruns_parseCall : ¬ Overruns (parseCall b ts) := by
  simp [parseCall, overruns_bind]

@[simp] theorem not_overruns_connect {op : Connective} {left right : Condition} :
    ¬ Overruns (connect b op left right t) := by
  simp [connect, overruns_bind]

mutual

theorem not_overruns_parseOr (depth : Nat) (ts : List Token) : ¬ Overruns (parseOr b depth ts) := by
  rw [parseOr]
  simp only [overruns_bind, exists_step, not_overruns_ok, and_false, exists_false, or_false]
  rintro (hleft | ⟨left, mid, hleft, hmore⟩)
  · exact not_overruns_parseAnd depth ts hleft
  · have hmid := hleft.rest_lt
    exact not_overruns_parseOrMore depth left mid hmore
termination_by (ts.length, 3)

theorem not_overruns_parseOrMore (depth : Nat) (left : Condition) (ts : List Token) :
    ¬ Overruns (parseOrMore b depth left ts) := by
  cases ts with
  | nil =>
    rw [parseOrMore]
    exact not_overruns_ok
  | cons t ts =>
    rw [parseOrMore]
    split
    · simp only [overruns_bind, exists_step, not_overruns_ok, not_overruns_connect, and_false,
        exists_false, or_false, false_or]
      rintro (hright | ⟨right, after, hright, both, _, hmore⟩)
      · exact not_overruns_parseAnd depth ts hright
      · have hafter : after.length < (t :: ts).length := Nat.lt_succ_of_lt hright.rest_lt
        exact not_overruns_parseOrMore depth both after hmore
    · exact not_overruns_ok
termination_by (ts.length, 0)

theorem not_overruns_parseAnd (depth : Nat) (ts : List Token) :
    ¬ Overruns (parseAnd b depth ts) := by
  rw [parseAnd]
  simp only [overruns_bind, exists_step, not_overruns_ok, and_false, exists_false, or_false]
  rintro (hleft | ⟨left, mid, hleft, hmore⟩)
  · exact not_overruns_parseUnary depth ts hleft
  · have hmid := hleft.rest_lt
    exact not_overruns_parseAndMore depth left mid hmore
termination_by (ts.length, 2)

theorem not_overruns_parseAndMore (depth : Nat) (left : Condition) (ts : List Token) :
    ¬ Overruns (parseAndMore b depth left ts) := by
  cases ts with
  | nil =>
    rw [parseAndMore]
    exact not_overruns_ok
  | cons t ts =>
    rw [parseAndMore]
    split
    · simp only [overruns_bind, exists_step, not_overruns_ok, not_overruns_connect, and_false,
        exists_false, or_false, false_or]
      rintro (hright | ⟨right, after, hright, both, _, hmore⟩)
      · exact not_overruns_parseUnary depth ts hright
      · have hafter : after.length < (t :: ts).length := Nat.lt_succ_of_lt hright.rest_lt
        exact not_overruns_parseAndMore depth both after hmore
    · exact not_overruns_ok
termination_by (ts.length, 0)

theorem not_overruns_parseUnary (depth : Nat) (ts : List Token) :
    ¬ Overruns (parseUnary b depth ts) := by
  cases ts with
  | nil => simp [parseUnary]
  | cons t ts =>
    obtain ⟨l, p⟩ := t
    have hoperand := not_overruns_parseUnary (depth + 1) ts
    have hinner := not_overruns_parseOr (depth + 1) ts
    cases l with
    | word name => simp [parseUnary, overruns_bind]
    | symbol s =>
      cases s with
      | bang => simp [parseUnary, overruns_bind, hoperand]
      | leftParen => simp [parseUnary, overruns_bind, hinner]
      | _ => simp [parseUnary]
    | _ => simp [parseUnary]
termination_by (ts.length, 1)

end

@[simp] theorem not_overruns_parseCondition : ¬ Overruns (parseCondition b depth ts) := by
  simp [parseCondition, overruns_bind, not_overruns_parseOr]

/-! ### Statements -/

/-- The count of a `repeat` is met between its parentheses. -/
theorem parseCount_overruns :
    Overruns (parseCount b t ts) ↔
      ∃ p p₁ p₂ digits rest, ts = ⟨.symbol .leftParen, p⟩ :: ⟨.number digits, p₁⟩ ::
          ⟨.symbol .rightParen, p₂⟩ :: rest ∧
        Text.maxDigits < digits.toList.length := by
  simp only [parseCount, overruns_bind, exists_step, expectSymbol_reads, parseArguments_reads,
    not_overruns_expectSymbol, not_overruns_parseArguments, false_or]
  constructor
  · rintro ⟨_, mid, ⟨p, _, rfl⟩, arguments, after, ⟨p₂, hargs⟩, h⟩
    split at h
    · rename_i digits p₁
      obtain ⟨rfl, _⟩ := argumentsText_singleton.1 hargs
      rcases Nat.lt_or_ge Text.maxDigits digits.toList.length with hlong | hshort
      · exact ⟨p, p₁, p₂, digits, after, rfl, hlong⟩
      · simp [Text.readDigits, hshort] at h
    · exact absurd h not_overruns_failAt
    · exact absurd h not_overruns_failAt
  · rintro ⟨p, p₁, p₂, digits, rest, rfl, hlong⟩
    refine ⟨_, _, ⟨p, rfl, rfl⟩, [⟨.number digits, p₁⟩], rest, ⟨p₂, .row (.one .number)⟩, ?_⟩
    simp [Text.readDigits, Nat.not_le_of_lt hlong, Overruns]

theorem parseCount_long {digits : String} {p p₁ p₂ : Position}
    (h : Text.maxDigits < digits.toList.length) :
    Overruns (parseCount b t (⟨.symbol .leftParen, p⟩ :: ⟨.number digits, p₁⟩ ::
      ⟨.symbol .rightParen, p₂⟩ :: rest)) :=
  parseCount_overruns.2 ⟨p, p₁, p₂, digits, rest, rfl, h⟩

theorem parseBlock_overruns :
    Overruns (parseBlock b depth ts) ↔
      ∃ p mid, ts = ⟨.symbol .leftBrace, p⟩ :: mid ∧ depth + 1 ≤ b.limit ∧
        Overruns (parseBody b (depth + 1) mid) := by
  rw [parseBlock]
  simp only [overruns_bind, exists_step, exists_prop, expectSymbol_reads, checkLevels_ok,
    not_overruns_expectSymbol, not_overruns_checkLevels, not_overruns_ok, false_or, or_false,
    and_false, exists_false]
  constructor
  · rintro ⟨_, mid, ⟨p, _, rfl⟩, _, hroom, hbody⟩
    exact ⟨p, mid, rfl, hroom, hbody⟩
  · rintro ⟨p, mid, rfl, hroom, hbody⟩
    exact ⟨_, mid, ⟨p, rfl, rfl⟩, ⟨⟩, hroom, hbody⟩

/-- A row meets a count in its first statement, or later. -/
theorem parseBody_overruns :
    Overruns (parseBody b depth ts) ↔
      ¬ Begins (.symbol .rightBrace) ts ∧ (Overruns (parseStatement b depth ts) ∨
        ∃ s mid, Reads (parseStatement b depth ts) s mid ∧ Overruns (parseBody b depth mid)) := by
  cases ts with
  | nil =>
    -- without a closing brace the text ends within the row, which is an error of the text
    simp [parseBody, parseStatement, not_reads_failHere]
  | cons t ts =>
    rw [parseBody]
    by_cases hl : t.lexeme = .symbol .rightBrace
    · simp [hl]
    · simp only [hl, if_false, overruns_bind, exists_step, exists_prop, not_overruns_ok, and_false,
        exists_false, or_false, begins_cons, not_false_iff, true_and]

/-- The places at which a statement meets a count that is too long. -/
inductive StatementOverrun (b : Bounds) (depth : Nat) : List Token → Prop where
  | ifElse {ts : List Token} {p : Position}
      (statement : Overruns (parseIf b depth ⟨.keyword .ifWord, p⟩ ts)) :
      StatementOverrun b depth (⟨.keyword .ifWord, p⟩ :: ts)
  | whileLoop {ts mid : List Token} {c : Condition} {p : Position}
      (condition : Reads (parseCondition b depth ts) c mid)
      (block : Overruns (parseBlock b depth mid)) :
      StatementOverrun b depth (⟨.keyword .whileWord, p⟩ :: ts)
  | doWhile {ts : List Token} {p : Position} (block : Overruns (parseBlock b depth ts)) :
      StatementOverrun b depth (⟨.keyword .doWord, p⟩ :: ts)
  | count {ts : List Token} {p : Position}
      (number : Overruns (parseCount b ⟨.keyword .repeatWord, p⟩ ts)) :
      StatementOverrun b depth (⟨.keyword .repeatWord, p⟩ :: ts)
  | repeatLoop {ts mid : List Token} {count : Nat} {p : Position}
      (number : Reads (parseCount b ⟨.keyword .repeatWord, p⟩ ts) count mid)
      (block : Overruns (parseBlock b depth mid)) :
      StatementOverrun b depth (⟨.keyword .repeatWord, p⟩ :: ts)

theorem parseStatement_overruns :
    Overruns (parseStatement b depth ts) ↔ StatementOverrun b depth ts := by
  constructor
  · intro h
    cases ts with
    | nil => simp [parseStatement] at h
    | cons t ts =>
      obtain ⟨l, p⟩ := t
      cases l with
      | word name => simp [parseStatement, overruns_bind] at h
      | number digits => simp [parseStatement] at h
      | symbol x => cases x <;> simp [parseStatement] at h
      | keyword k =>
        rw [parseStatement] at h
        cases k with
        | ifWord =>
          simp only [overruns_bind, not_overruns_ok, and_false, exists_false, or_false] at h
          exact .ifElse h
        | whileWord =>
          simp only [overruns_bind, exists_step, exists_prop, not_overruns_parseCondition,
            not_overruns_ok, false_or, and_false, exists_false, or_false] at h
          obtain ⟨c, mid, hc, hblock⟩ := h
          exact .whileLoop hc hblock
        | doWord =>
          simp only [overruns_bind, not_overruns_expectLexeme, not_overruns_parseCondition,
            not_overruns_expectSymbol, not_overruns_ok, and_false, exists_false, or_false] at h
          exact .doWhile h
        | repeatWord =>
          simp only [overruns_bind, exists_step, exists_prop, not_overruns_ok, and_false,
            exists_false, or_false] at h
          rcases h with hcount | ⟨count, mid, hcount, hblock⟩
          · exact .count hcount
          · exact .repeatLoop hcount hblock
        | elseWord => simp at h
        | _ => exact absurd h not_overruns_failAt
  · intro h
    cases h with
    | ifElse hs =>
      rw [parseStatement]
      exact overruns_bind.2 (.inl hs)
    | whileLoop hc hblock =>
      rw [parseStatement]
      simp only [overruns_bind, exists_step]
      exact .inr ⟨_, _, hc, .inl hblock⟩
    | doWhile hblock =>
      rw [parseStatement]
      exact overruns_bind.2 (.inl hblock)
    | count hcount =>
      rw [parseStatement]
      exact overruns_bind.2 (.inl hcount)
    | repeatLoop hcount hblock =>
      rw [parseStatement]
      simp only [overruns_bind, exists_step]
      exact .inr ⟨_, _, hcount, .inl hblock⟩

theorem parseIf_overruns :
    Overruns (parseIf b depth t ts) ↔
      ∃ c mid, Reads (parseCondition b depth ts) c mid ∧ (Overruns (parseBlock b depth mid) ∨
        ∃ body after, Reads (parseBlock b depth mid) body after ∧
          Overruns (parseElse b depth after)) := by
  rw [parseIf]
  simp only [overruns_bind, exists_step, exists_prop, not_overruns_parseCondition, not_overruns_ok,
    false_or, and_false, exists_false, or_false]

/-- The places at which an `else` part meets a count that is too long. -/
inductive ElseOverrun (b : Bounds) (depth : Nat) : List Token → Prop where
  | chain {ts : List Token} {p p₁ : Position} (room : depth + 1 ≤ b.limit)
      (statement : Overruns (parseIf b (depth + 1) ⟨.keyword .ifWord, p₁⟩ ts)) :
      ElseOverrun b depth (⟨.keyword .elseWord, p⟩ :: ⟨.keyword .ifWord, p₁⟩ :: ts)
  | block {ts : List Token} {p : Position} (block : Overruns (parseBlock b depth ts)) :
      ElseOverrun b depth (⟨.keyword .elseWord, p⟩ :: ts)

theorem parseElse_overruns : Overruns (parseElse b depth ts) ↔ ElseOverrun b depth ts := by
  constructor
  · intro h
    unfold parseElse at h
    split at h
    · simp only [overruns_bind, checkLevels_ok, not_overruns_checkLevels, not_overruns_ok,
        false_or, and_false, exists_false, or_false] at h
      obtain ⟨_, hroom, hs⟩ := h
      exact .chain hroom hs
    · simp only [overruns_bind, not_overruns_ok, and_false, exists_false, or_false] at h
      exact .block h
    · exact absurd h not_overruns_ok
  · intro h
    cases h with
    | chain hroom hs =>
      rw [parseElse]
      simp only [overruns_bind, checkLevels_ok]
      exact .inr ⟨⟨⟩, hroom, .inl hs⟩
    | block hblock =>
      obtain ⟨p, mid, rfl, hroom, hbody⟩ := parseBlock_overruns.1 hblock
      rw [parseElse]
      · exact overruns_bind.2 (.inl hblock)
      · rintro _ _ ⟨⟩

/-! ### Texts -/

theorem parseDefinition_overruns :
    Overruns (parseDefinition b ts) ↔
      ∃ name p p₁ p₂ mid, ts = ⟨.word name, p⟩ :: ⟨.symbol .leftParen, p₁⟩ ::
          ⟨.symbol .rightParen, p₂⟩ :: mid ∧ Overruns (parseBlock b 0 mid) := by
  simp only [parseDefinition, overruns_bind, exists_step, Prod.exists, expectName_reads,
    expectSymbol_reads, parseArguments_reads, not_overruns_expectName, not_overruns_expectSymbol,
    not_overruns_parseArguments, false_or]
  constructor
  · rintro ⟨name, p, _, rfl, _, _, ⟨p₁, _, rfl⟩, arguments, after, ⟨p₂, hargs⟩, h⟩
    cases arguments with
    | nil =>
      simp only [List.isEmpty_nil, if_true, overruns_bind, not_overruns_ok, and_false, exists_false,
        or_false] at h
      obtain rfl := argumentsText_nil.1 hargs
      exact ⟨name, p, p₁, p₂, after, rfl, h⟩
    | cons a others => exact absurd h not_overruns_error
  · rintro ⟨name, p, p₁, p₂, mid, rfl, hblock⟩
    refine ⟨name, p, _, rfl, _, _, ⟨p₁, rfl, rfl⟩, [], mid, ⟨p₂, .none⟩, ?_⟩
    exact overruns_bind.2 (.inl hblock)

/-- The places at which a text meets a count that is too long. -/
inductive ListingOverrun (b : Bounds) : List Token → Prop where
  | definition {ts : List Token} {k : Keyword} {p : Position} (keyword : DefinitionKeyword k)
      (first : Overruns (parseDefinition b ts)) : ListingOverrun b (⟨.keyword k, p⟩ :: ts)
  | afterDefinition {ts mid : List Token} {k : Keyword} {p : Position} {d : Definition}
      (keyword : DefinitionKeyword k) (first : Reads (parseDefinition b ts) d mid)
      (later : Overruns (parseListing b mid)) : ListingOverrun b (⟨.keyword k, p⟩ :: ts)
  | statement {ts : List Token} (other : ∀ k, DefinitionKeyword k → ¬ Begins (.keyword k) ts)
      (first : Overruns (parseStatement b 0 ts)) : ListingOverrun b ts
  | afterStatement {ts mid : List Token} {s : Option Statement}
      (other : ∀ k, DefinitionKeyword k → ¬ Begins (.keyword k) ts)
      (first : Reads (parseStatement b 0 ts) s mid) (later : Overruns (parseListing b mid)) :
      ListingOverrun b ts

theorem parseListing_overruns : Overruns (parseListing b ts) ↔ ListingOverrun b ts := by
  constructor
  · intro h
    cases ts with
    | nil =>
      rw [parseListing] at h
      exact absurd h not_overruns_ok
    | cons t ts =>
      rw [parseListing] at h
      split at h
      · rename_i hkeyword
        obtain ⟨k, hk, hl⟩ := definitionKeyword_iff.2 hkeyword
        obtain ⟨l, p⟩ := t
        obtain rfl : l = .keyword k := hl
        simp only [overruns_bind, exists_step, exists_prop, not_overruns_ok, and_false,
          exists_false, or_false] at h
        rcases h with hfirst | ⟨d, mid, hfirst, hlater⟩
        · exact .definition hk hfirst
        · exact .afterDefinition hk hfirst hlater
      · rename_i hkeyword
        have hother : ∀ k, DefinitionKeyword k → ¬ Begins (.keyword k) (t :: ts) := by
          intro k hk hbegins
          exact hkeyword (definitionKeyword_iff.1 ⟨k, hk, begins_cons.1 hbegins⟩)
        simp only [overruns_bind, exists_step, exists_prop, not_overruns_ok, and_false,
          exists_false, or_false] at h
        rcases h with hfirst | ⟨s, mid, hfirst, hlater⟩
        · exact .statement hother hfirst
        · exact .afterStatement hother hfirst hlater
  · intro h
    -- a text that begins with a definition is read as one, and any other as a statement
    have hstatement {t : Token} {ts : List Token}
        (hother : ∀ k, DefinitionKeyword k → ¬ Begins (.keyword k) (t :: ts)) :
        ¬ (t.lexeme = .keyword .function ∨ t.lexeme = .keyword .void) := by
      intro hkeyword
      obtain ⟨k, hk, hl⟩ := definitionKeyword_iff.2 hkeyword
      exact hother k hk (begins_cons.2 hl)
    cases h with
    | definition hk hfirst =>
      rw [parseListing, if_pos (definitionKeyword_iff.1 ⟨_, hk, rfl⟩)]
      exact overruns_bind.2 (.inl hfirst)
    | afterDefinition hk hfirst hlater =>
      rw [parseListing, if_pos (definitionKeyword_iff.1 ⟨_, hk, rfl⟩)]
      simp only [overruns_bind, exists_step]
      exact .inr ⟨_, _, hfirst, .inl hlater⟩
    | statement hother hfirst =>
      cases ts with
      | nil => simp [parseStatement] at hfirst
      | cons t ts =>
        rw [parseListing, if_neg (hstatement hother)]
        exact overruns_bind.2 (.inl hfirst)
    | afterStatement hother hfirst hlater =>
      cases ts with
      | nil => simp [parseStatement, not_reads_failHere] at hfirst
      | cons t ts =>
        rw [parseListing, if_neg (hstatement hother)]
        simp only [overruns_bind, exists_step]
        exact .inr ⟨_, _, hfirst, .inl hlater⟩

end GridRobot.Source
