import GridRobot.Proofs.Reading
import GridRobot.Proofs.Source.Grammar
import GridRobot.Source.Parser

/-!
# What each reading function comes to

One statement for each function that reads a tree: to which trees it comes, in terms of what the
functions that it calls come to. The lengths of the rests and the texts of the failures are left
behind here.

## Main definitions

* `UnaryRead` and `StatementRead` tell apart the ways in which an operand and a statement are read.

## Main statements

* `parseCall_reads`: a call is read where the grammar has one.
* `parseUnary_reads`, `parseStatement_reads`: the readings are those that were told apart.
* `parseBody_reads`, `parseElse_pauses`: a row ends at a brace, and an `if` where no `else` follows.
-/

namespace GridRobot.Source

variable {b : Bounds} {depth : Nat} {ts rest : List Token} {t : Token}

/-! ### Single tokens and limits -/

theorem checkLevels_ok {levels : Nat} {u : PUnit} :
    checkLevels b levels t = .ok u ↔ levels ≤ b.limit := by
  by_cases h : levels ≤ b.limit <;> simp [checkLevels, failAt, h]

theorem connect_ok {op : Connective} {left right c : Condition} :
    connect b op left right t = .ok c ↔
      c = .binary op left right t.position.line ∧ c.height ≤ b.limit := by
  simp only [connect, bind_eq_ok, checkLevels_ok, Except.ok.injEq]
  constructor
  · rintro ⟨_, h, rfl⟩
    exact ⟨rfl, h⟩
  · rintro ⟨rfl, h⟩
    exact ⟨⟨⟩, h, rfl⟩

theorem not_reads_failHere {α : Type} {tokens : List Token} {v : α}
    {cause : Option Lexeme → Cause} :
    ¬ Reads (failHere b ts cause : Reading α tokens) v rest := by
  cases ts <;> simp [failHere, not_reads_error]

theorem expectLexeme_reads {l : Lexeme} :
    Reads (expectLexeme b l ts) t rest ↔ ts = t :: rest ∧ t.lexeme = l := by
  cases ts with
  | nil => simp [expectLexeme, not_reads_failHere]
  | cons t' ts =>
    by_cases h : t'.lexeme = l
    · simp only [expectLexeme, h, if_true, reads_ok, List.cons.injEq]
      constructor
      · rintro ⟨rfl, rfl⟩
        exact ⟨⟨rfl, rfl⟩, h⟩
      · rintro ⟨⟨rfl, rfl⟩, _⟩
        exact ⟨rfl, rfl⟩
    · simp only [expectLexeme, h, if_false, not_reads_failHere, false_iff, List.cons.injEq]
      rintro ⟨⟨rfl, rfl⟩, hl⟩
      exact h hl

/-- A symbol is read where it stands. -/
theorem expectSymbol_reads {s : Symbol} :
    Reads (expectSymbol b s ts) t rest ↔ ∃ p, t = ⟨.symbol s, p⟩ ∧ ts = ⟨.symbol s, p⟩ :: rest := by
  rw [expectSymbol, expectLexeme_reads]
  constructor
  · rintro ⟨rfl, hl⟩
    obtain ⟨l, p⟩ := t
    obtain rfl : l = .symbol s := hl
    exact ⟨p, rfl, rfl⟩
  · rintro ⟨p, rfl, rfl⟩
    exact ⟨rfl, rfl⟩

theorem expectName_reads {name : String} {p : Position} :
    Reads (expectName b ts) (name, p) rest ↔ ts = ⟨.word name, p⟩ :: rest := by
  unfold expectName
  split
  · simp only [reads_ok, Prod.mk.injEq, List.cons.injEq, Token.mk.injEq, Lexeme.word.injEq]
    constructor
    · rintro ⟨⟨rfl, rfl⟩, rfl⟩
      exact ⟨⟨rfl, rfl⟩, rfl⟩
    · rintro ⟨⟨rfl, rfl⟩, rfl⟩
      exact ⟨⟨rfl, rfl⟩, rfl⟩
  · rename_i hother
    simp only [not_reads_failHere, false_iff]
    intro h
    exact hother _ _ _ h

/-! ### Calls -/

theorem parseArgument_reads {a : Token} :
    Reads (parseArgument b ts) a rest ↔ ts = a :: rest ∧ ArgumentToken a := by
  unfold parseArgument
  split
  · simp only [reads_ok, List.cons.injEq]
    constructor
    · rintro ⟨rfl, rfl⟩
      exact ⟨⟨rfl, rfl⟩, .word⟩
    · rintro ⟨⟨rfl, rfl⟩, _⟩
      exact ⟨rfl, rfl⟩
  · simp only [reads_ok, List.cons.injEq]
    constructor
    · rintro ⟨rfl, rfl⟩
      exact ⟨⟨rfl, rfl⟩, .number⟩
    · rintro ⟨⟨rfl, rfl⟩, _⟩
      exact ⟨rfl, rfl⟩
  · rename_i hword hnumber
    simp only [not_reads_failHere, false_iff]
    rintro ⟨rfl, harg⟩
    cases harg with
    | word => exact hword _ _ _ rfl
    | number => exact hnumber _ _ _ rfl

/-- After an argument comes the closing parenthesis, or a comma and a further argument. -/
theorem parseMoreArguments_reads {arguments : List Token} :
    Reads (parseMoreArguments b ts) arguments rest ↔
      ∃ a, ArgumentToken a ∧
        ((∃ p, ts = a :: ⟨.symbol .rightParen, p⟩ :: rest ∧ arguments = [a]) ∨
          ∃ p mid others, ts = a :: ⟨.symbol .comma, p⟩ :: mid ∧
            Reads (parseMoreArguments b mid) others rest ∧ arguments = a :: others) := by
  rw [parseMoreArguments]
  simp only [reads_bind, exists_step, parseArgument_reads]
  constructor
  · rintro ⟨a, mid, ⟨rfl, harg⟩, h⟩
    refine ⟨a, harg, ?_⟩
    split at h
    · rename_i p after _ _
      obtain ⟨rfl, rfl⟩ := reads_ok.1 h
      exact .inl ⟨p, rfl, rfl⟩
    · simp only [reads_bind, exists_step, exists_prop, expectSymbol_reads, reads_ok] at h
      obtain ⟨_, _, ⟨p, _, rfl⟩, others, after, hothers, rfl, rfl⟩ := h
      exact .inr ⟨p, _, others, rfl, hothers, rfl⟩
  · rintro ⟨a, harg, ⟨p, rfl, rfl⟩ | ⟨p, mid, others, rfl, hothers, rfl⟩⟩
    · exact ⟨a, _, ⟨rfl, harg⟩, reads_ok.2 ⟨rfl, rfl⟩⟩
    · refine ⟨a, _, ⟨rfl, harg⟩, ?_⟩
      simp only [reads_bind, exists_step, exists_prop, expectSymbol_reads, reads_ok]
      exact ⟨_, _, ⟨p, rfl, rfl⟩, others, rest, hothers, rfl, rfl⟩

theorem argumentRow_of_reads {ts arguments : List Token}
    (h : Reads (parseMoreArguments b ts) arguments rest) :
    ∃ p, ArgumentRow ts arguments (⟨.symbol .rightParen, p⟩ :: rest) := by
  obtain ⟨a, harg, ⟨p, rfl, rfl⟩ | ⟨p, mid, others, hts, hothers, rfl⟩⟩ :=
    parseMoreArguments_reads.1 h
  · exact ⟨p, .one harg⟩
  · have hlt : mid.length < ts.length := by simp only [hts, List.length_cons]; omega
    obtain ⟨q, hrow⟩ := argumentRow_of_reads hothers
    exact ⟨q, hts ▸ .more harg hrow⟩
termination_by ts.length

theorem ArgumentRow.reads {arguments left : List Token} {p : Position}
    (h : ArgumentRow ts arguments left) (hleft : left = ⟨.symbol .rightParen, p⟩ :: rest) :
    Reads (parseMoreArguments b ts) arguments rest := by
  induction h with
  | one harg => exact parseMoreArguments_reads.2 ⟨_, harg, .inl ⟨p, by rw [hleft], rfl⟩⟩
  | more harg _ ih =>
    exact parseMoreArguments_reads.2 ⟨_, harg, .inr ⟨_, _, _, rfl, ih hleft, rfl⟩⟩

theorem parseArguments_reads {arguments : List Token} :
    Reads (parseArguments b ts) arguments rest ↔
      ∃ p, ArgumentsText ts arguments (⟨.symbol .rightParen, p⟩ :: rest) := by
  unfold parseArguments
  split
  · rename_i p after
    constructor
    · intro h
      obtain ⟨rfl, rfl⟩ := reads_ok.1 h
      exact ⟨p, .none⟩
    · rintro ⟨q, _ | h⟩
      · exact reads_ok.2 ⟨rfl, rfl⟩
      · rcases h with ⟨⟨⟩⟩ | ⟨⟨⟩, _⟩
  · rename_i hother
    constructor
    · intro h
      obtain ⟨p, hrow⟩ := argumentRow_of_reads h
      exact ⟨p, .row hrow⟩
    · rintro ⟨q, _ | h⟩
      · exact absurd rfl (hother _ _)
      · exact h.reads rfl

/-- A call is read where the grammar has one. -/
theorem parseCall_reads {c : Call} : Reads (parseCall b ts) c rest ↔ CallText ts c rest := by
  simp only [parseCall, reads_bind, exists_step, exists_prop, Prod.exists, expectName_reads,
    expectSymbol_reads, parseArguments_reads, reads_ok]
  constructor
  · rintro ⟨name, p, mid, rfl, _, after, ⟨p₁, _, rfl⟩, arguments, beyond, ⟨p₂, hargs⟩, rfl, rfl⟩
    exact .call hargs
  · rintro ⟨hargs⟩
    exact ⟨_, _, _, rfl, _, _, ⟨_, rfl, rfl⟩, _, _, ⟨_, hargs⟩, rfl, rfl⟩

/-! ### Conditions -/

theorem parseOr_reads {c : Condition} :
    Reads (parseOr b depth ts) c rest ↔
      ∃ left mid, Reads (parseAnd b depth ts) left mid ∧
        Pauses (parseOrMore b depth left mid) c rest := by
  rw [parseOr]
  simp [reads_bind, exists_step, exists_pause, reads_ok]

theorem parseAnd_reads {c : Condition} :
    Reads (parseAnd b depth ts) c rest ↔
      ∃ left mid, Reads (parseUnary b depth ts) left mid ∧
        Pauses (parseAndMore b depth left mid) c rest := by
  rw [parseAnd]
  simp [reads_bind, exists_step, exists_pause, reads_ok]

theorem parseOrMore_pauses {left c : Condition} :
    Pauses (parseOrMore b depth left ts) c rest ↔
      (¬ Begins (.symbol .either) ts ∧ c = left ∧ rest = ts) ∨
        ∃ p mid right after, ts = ⟨.symbol .either, p⟩ :: mid ∧
          Reads (parseAnd b depth mid) right after ∧
          (Condition.binary .either left right p.line).height ≤ b.limit ∧
          Pauses (parseOrMore b depth (.binary .either left right p.line) after) c rest := by
  cases ts with
  | nil =>
    rw [parseOrMore]
    simp [pauses_ok, Begins]
  | cons t ts =>
    obtain ⟨l, p⟩ := t
    rw [parseOrMore]
    by_cases hl : l = .symbol .either
    · subst hl
      simp only [if_true, pauses_bind, exists_step, exists_pause, exists_prop, connect_ok,
        pauses_ok, begins_cons, not_true, false_and, false_or]
      constructor
      · rintro ⟨right, after, hright, _, ⟨rfl, hheight⟩, _, _, hmore, rfl, rfl⟩
        exact ⟨p, ts, right, after, rfl, hright, hheight, hmore⟩
      · rintro ⟨_, _, right, after, ⟨⟩, hright, hheight, hmore⟩
        exact ⟨right, after, hright, _, ⟨rfl, hheight⟩, c, rest, hmore, rfl, rfl⟩
    · simp [hl, pauses_ok]

theorem parseAndMore_pauses {left c : Condition} :
    Pauses (parseAndMore b depth left ts) c rest ↔
      (¬ Begins (.symbol .both) ts ∧ c = left ∧ rest = ts) ∨
        ∃ p mid right after, ts = ⟨.symbol .both, p⟩ :: mid ∧
          Reads (parseUnary b depth mid) right after ∧
          (Condition.binary .both left right p.line).height ≤ b.limit ∧
          Pauses (parseAndMore b depth (.binary .both left right p.line) after) c rest := by
  cases ts with
  | nil =>
    rw [parseAndMore]
    simp [pauses_ok, Begins]
  | cons t ts =>
    obtain ⟨l, p⟩ := t
    rw [parseAndMore]
    by_cases hl : l = .symbol .both
    · subst hl
      simp only [if_true, pauses_bind, exists_step, exists_pause, exists_prop, connect_ok,
        pauses_ok, begins_cons, not_true, false_and, false_or]
      constructor
      · rintro ⟨right, after, hright, _, ⟨rfl, hheight⟩, _, _, hmore, rfl, rfl⟩
        exact ⟨p, ts, right, after, rfl, hright, hheight, hmore⟩
      · rintro ⟨_, _, right, after, ⟨⟩, hright, hheight, hmore⟩
        exact ⟨right, after, hright, _, ⟨rfl, hheight⟩, c, rest, hmore, rfl, rfl⟩
    · simp [hl, pauses_ok]

theorem parseOrMore_stop {c : Condition} (h : ¬ Begins (.symbol .either) ts) :
    Pauses (parseOrMore b depth c ts) c ts :=
  parseOrMore_pauses.2 (.inl ⟨h, rfl, rfl⟩)

theorem parseAndMore_stop {c : Condition} (h : ¬ Begins (.symbol .both) ts) :
    Pauses (parseAndMore b depth c ts) c ts :=
  parseAndMore_pauses.2 (.inl ⟨h, rfl, rfl⟩)

/-- The ways in which an operand is read. -/
inductive UnaryRead (b : Bounds) (depth : Nat) : List Token → Condition → List Token → Prop where
  | bang {ts rest : List Token} {c : Condition} {p : Position} (room : depth + 1 ≤ b.limit)
      (operand : Reads (parseUnary b (depth + 1) ts) c rest)
      (height : (Condition.not c p.line).height ≤ b.limit) :
      UnaryRead b depth (⟨.symbol .bang, p⟩ :: ts) (.not c p.line) rest
  | group {ts rest : List Token} {c : Condition} {p p₁ : Position} (room : depth + 1 ≤ b.limit)
      (inner : Reads (parseOr b (depth + 1) ts) c (⟨.symbol .rightParen, p₁⟩ :: rest)) :
      UnaryRead b depth (⟨.symbol .leftParen, p⟩ :: ts) c rest
  | call {ts rest : List Token} {c : Call} (call : CallText ts c rest) :
      UnaryRead b depth ts (.call c) rest

theorem parseUnary_bang {c : Condition} {p : Position} :
    Reads (parseUnary b depth (⟨.symbol .bang, p⟩ :: ts)) c rest ↔
      depth + 1 ≤ b.limit ∧ ∃ operand, Reads (parseUnary b (depth + 1) ts) operand rest ∧
        (Condition.not operand p.line).height ≤ b.limit ∧ c = .not operand p.line := by
  rw [parseUnary]
  simp only [reads_bind, exists_step, exists_prop, checkLevels_ok, reads_ok]
  constructor
  · rintro ⟨_, hroom, operand, _, hoperand, _, hheight, rfl, rfl⟩
    exact ⟨hroom, operand, hoperand, hheight, rfl⟩
  · rintro ⟨hroom, operand, hoperand, hheight, rfl⟩
    exact ⟨⟨⟩, hroom, operand, rest, hoperand, ⟨⟩, hheight, rfl, rfl⟩

theorem parseUnary_group {c : Condition} {p : Position} :
    Reads (parseUnary b depth (⟨.symbol .leftParen, p⟩ :: ts)) c rest ↔
      depth + 1 ≤ b.limit ∧
        ∃ p₁, Reads (parseOr b (depth + 1) ts) c (⟨.symbol .rightParen, p₁⟩ :: rest) := by
  rw [parseUnary]
  simp only [reads_bind, exists_step, exists_prop, checkLevels_ok, reads_ok, expectSymbol_reads]
  constructor
  · rintro ⟨_, hroom, _, _, hinner, _, _, ⟨p₁, _, rfl⟩, rfl, rfl⟩
    exact ⟨hroom, p₁, hinner⟩
  · rintro ⟨hroom, p₁, hinner⟩
    exact ⟨⟨⟩, hroom, c, _, hinner, _, rest, ⟨p₁, rfl, rfl⟩, rfl, rfl⟩

theorem parseUnary_word {c : Condition} {name : String} {p : Position} :
    Reads (parseUnary b depth (⟨.word name, p⟩ :: ts)) c rest ↔
      ∃ call, CallText (⟨.word name, p⟩ :: ts) call rest ∧ c = .call call := by
  rw [parseUnary]
  simp only [reads_bind, exists_step, exists_prop, parseCall_reads, reads_ok]
  constructor
  · rintro ⟨call, _, hcall, rfl, rfl⟩
    exact ⟨call, hcall, rfl⟩
  · rintro ⟨call, hcall, rfl⟩
    exact ⟨call, rest, hcall, rfl, rfl⟩

/-- An operand is read in one of these ways. -/
theorem parseUnary_reads {c : Condition} :
    Reads (parseUnary b depth ts) c rest ↔ UnaryRead b depth ts c rest := by
  constructor
  · intro h
    cases ts with
    | nil => simp [parseUnary, not_reads_failHere] at h
    | cons t ts =>
      obtain ⟨l, p⟩ := t
      cases l with
      | word name =>
        obtain ⟨call, hcall, rfl⟩ := parseUnary_word.1 h
        exact .call hcall
      | symbol s =>
        cases s with
        | bang =>
          obtain ⟨hroom, operand, hoperand, hheight, rfl⟩ := parseUnary_bang.1 h
          exact .bang hroom hoperand hheight
        | leftParen =>
          obtain ⟨hroom, p₁, hinner⟩ := parseUnary_group.1 h
          exact .group hroom hinner
        | _ => simp [parseUnary, not_reads_failHere] at h
      | _ => simp [parseUnary, not_reads_failHere] at h
  · rintro (⟨hroom, hoperand, hheight⟩ | ⟨hroom, hinner⟩ | hcall)
    · exact parseUnary_bang.2 ⟨hroom, _, hoperand, hheight, rfl⟩
    · exact parseUnary_group.2 ⟨hroom, _, hinner⟩
    · cases hcall with
      | call hargs => exact parseUnary_word.2 ⟨_, .call hargs, rfl⟩

theorem parseCondition_reads {c : Condition} :
    Reads (parseCondition b depth ts) c rest ↔
      ∃ p p₁ mid, ts = ⟨.symbol .leftParen, p⟩ :: mid ∧
        Reads (parseOr b depth mid) c (⟨.symbol .rightParen, p₁⟩ :: rest) := by
  simp only [parseCondition, reads_bind, exists_step, exists_prop, expectSymbol_reads, reads_ok]
  constructor
  · rintro ⟨_, mid, ⟨p, _, rfl⟩, _, _, hc, _, _, ⟨p₁, _, rfl⟩, rfl, rfl⟩
    exact ⟨p, p₁, mid, rfl, hc⟩
  · rintro ⟨p, p₁, mid, rfl, hc⟩
    exact ⟨_, mid, ⟨p, rfl, rfl⟩, c, _, hc, _, rest, ⟨p₁, rfl, rfl⟩, rfl, rfl⟩

/-! ### Statements -/

/-- The argument of a `repeat` is one number, and it must not be too long. -/
theorem parseCount_reads {count : Nat} :
    Reads (parseCount b t ts) count rest ↔
      ∃ p p₁ p₂ digits, ts = ⟨.symbol .leftParen, p⟩ :: ⟨.number digits, p₁⟩ ::
          ⟨.symbol .rightParen, p₂⟩ :: rest ∧
        Text.readDigits digits.toList = .ok count := by
  simp only [parseCount, reads_bind, exists_step, expectSymbol_reads, parseArguments_reads]
  constructor
  · rintro ⟨_, mid, ⟨p, _, rfl⟩, arguments, after, ⟨p₂, hargs⟩, h⟩
    split at h
    · rename_i digits p₁
      cases hread : Text.readDigits digits.toList with
      | error e => simp [hread, not_reads_error] at h
      | ok n =>
        simp only [hread, reads_ok] at h
        obtain ⟨rfl, rfl⟩ := h
        obtain ⟨rfl, _⟩ := argumentsText_singleton.1 hargs
        exact ⟨p, p₁, p₂, digits, rfl, hread⟩
    · exact absurd h (by simp [failAt, not_reads_error])
    · exact absurd h (by simp [failAt, not_reads_error])
  · rintro ⟨p, p₁, p₂, digits, rfl, hread⟩
    refine ⟨_, _, ⟨p, rfl, rfl⟩, [⟨.number digits, p₁⟩], rest, ⟨p₂, .row (.one .number)⟩, ?_⟩
    simp [hread, reads_ok]

theorem parseBlock_reads {body : List Statement} :
    Reads (parseBlock b depth ts) body rest ↔
      ∃ p mid, ts = ⟨.symbol .leftBrace, p⟩ :: mid ∧ depth + 1 ≤ b.limit ∧
        Reads (parseBody b (depth + 1) mid) body rest := by
  rw [parseBlock]
  simp only [reads_bind, exists_step, exists_prop, expectSymbol_reads, checkLevels_ok, reads_ok]
  constructor
  · rintro ⟨_, mid, ⟨p, _, rfl⟩, _, hroom, _, _, hbody, rfl, rfl⟩
    exact ⟨p, mid, rfl, hroom, hbody⟩
  · rintro ⟨p, mid, rfl, hroom, hbody⟩
    exact ⟨_, mid, ⟨p, rfl, rfl⟩, ⟨⟩, hroom, body, rest, hbody, rfl, rfl⟩

/-- A row goes on with statements as long as no closing brace comes. -/
theorem parseBody_reads {body : List Statement} :
    Reads (parseBody b depth ts) body rest ↔
      (∃ p, ts = ⟨.symbol .rightBrace, p⟩ :: rest ∧ body = []) ∨
        (¬ Begins (.symbol .rightBrace) ts ∧ ∃ s mid others,
          Reads (parseStatement b depth ts) s mid ∧ Reads (parseBody b depth mid) others rest ∧
            body = s.toList ++ others) := by
  cases ts with
  | nil =>
    rw [parseBody]
    simp [not_reads_failHere, parseStatement]
  | cons t ts =>
    obtain ⟨l, p⟩ := t
    rw [parseBody]
    by_cases hl : l = .symbol .rightBrace
    · subst hl
      simp only [if_true, reads_ok, begins_cons, not_true, false_and, or_false]
      constructor
      · rintro ⟨rfl, rfl⟩
        exact ⟨p, rfl, rfl⟩
      · rintro ⟨_, ⟨⟩, rfl⟩
        exact ⟨rfl, rfl⟩
    · simp only [hl, if_false, reads_bind, exists_step, exists_prop, reads_ok, begins_cons,
        not_false_iff, true_and, List.cons.injEq, Token.mk.injEq, false_and, exists_false,
        false_or]
      constructor
      · rintro ⟨s, mid, hs, others, _, hothers, rfl, rfl⟩
        exact ⟨s, mid, others, hs, hothers, rfl⟩
      · rintro ⟨s, mid, others, hs, hothers, rfl⟩
        exact ⟨s, mid, hs, others, rest, hothers, rfl, rfl⟩

/-- The ways in which a statement is read. -/
inductive StatementRead (b : Bounds) (depth : Nat) :
    List Token → Option Statement → List Token → Prop where
  | empty {rest : List Token} {p : Position} :
      StatementRead b depth (⟨.symbol .semicolon, p⟩ :: rest) none rest
  | call {ts rest : List Token} {c : Call} {p : Position}
      (call : CallText ts c (⟨.symbol .semicolon, p⟩ :: rest)) :
      StatementRead b depth ts (some (.call c)) rest
  | ifElse {ts rest : List Token} {s : Statement} {p : Position}
      (statement : Reads (parseIf b depth ⟨.keyword .ifWord, p⟩ ts) s rest) :
      StatementRead b depth (⟨.keyword .ifWord, p⟩ :: ts) (some s) rest
  | whileLoop {ts mid rest : List Token} {c : Condition} {body : List Statement} {p : Position}
      (condition : Reads (parseCondition b depth ts) c mid)
      (block : Reads (parseBlock b depth mid) body rest) :
      StatementRead b depth (⟨.keyword .whileWord, p⟩ :: ts) (some (.whileLoop c body p.line)) rest
  | doWhile {ts mid rest : List Token} {c : Condition} {body : List Statement}
      {p p₁ p₂ : Position}
      (block : Reads (parseBlock b depth ts) body (⟨.keyword .whileWord, p₁⟩ :: mid))
      (condition : Reads (parseCondition b depth mid) c (⟨.symbol .semicolon, p₂⟩ :: rest)) :
      StatementRead b depth (⟨.keyword .doWord, p⟩ :: ts) (some (.doWhile body c p.line)) rest
  | repeatLoop {ts mid rest : List Token} {count : Nat} {body : List Statement} {p : Position}
      (number : Reads (parseCount b ⟨.keyword .repeatWord, p⟩ ts) count mid)
      (block : Reads (parseBlock b depth mid) body rest) :
      StatementRead b depth (⟨.keyword .repeatWord, p⟩ :: ts)
        (some (.repeatLoop count body p.line)) rest

section Keywords

variable {s : Option Statement} {p : Position}

theorem parseStatement_semicolon :
    Reads (parseStatement b depth (⟨.symbol .semicolon, p⟩ :: ts)) s rest ↔
      s = none ∧ rest = ts := by
  rw [parseStatement]
  simp only [reads_ok]

theorem parseStatement_word {name : String} :
    Reads (parseStatement b depth (⟨.word name, p⟩ :: ts)) s rest ↔
      ∃ c p₁, CallText (⟨.word name, p⟩ :: ts) c (⟨.symbol .semicolon, p₁⟩ :: rest) ∧
        s = some (.call c) := by
  rw [parseStatement]
  simp only [reads_bind, exists_step, exists_prop, parseCall_reads, expectSymbol_reads, reads_ok]
  constructor
  · rintro ⟨c, _, hc, _, _, ⟨p₁, _, rfl⟩, rfl, rfl⟩
    exact ⟨c, p₁, hc, rfl⟩
  · rintro ⟨c, p₁, hc, rfl⟩
    exact ⟨c, _, hc, _, rest, ⟨p₁, rfl, rfl⟩, rfl, rfl⟩

theorem parseStatement_if :
    Reads (parseStatement b depth (⟨.keyword .ifWord, p⟩ :: ts)) s rest ↔
      ∃ s', Reads (parseIf b depth ⟨.keyword .ifWord, p⟩ ts) s' rest ∧ s = some s' := by
  rw [parseStatement]
  simp only [reads_bind, exists_step, exists_prop, reads_ok]
  constructor
  · rintro ⟨s', _, hs, rfl, rfl⟩
    exact ⟨s', hs, rfl⟩
  · rintro ⟨s', hs, rfl⟩
    exact ⟨s', rest, hs, rfl, rfl⟩

theorem parseStatement_while :
    Reads (parseStatement b depth (⟨.keyword .whileWord, p⟩ :: ts)) s rest ↔
      ∃ c mid body, Reads (parseCondition b depth ts) c mid ∧
        Reads (parseBlock b depth mid) body rest ∧ s = some (.whileLoop c body p.line) := by
  rw [parseStatement]
  simp only [reads_bind, exists_step, exists_prop, reads_ok]
  constructor
  · rintro ⟨c, mid, hc, body, _, hbody, rfl, rfl⟩
    exact ⟨c, mid, body, hc, hbody, rfl⟩
  · rintro ⟨c, mid, body, hc, hbody, rfl⟩
    exact ⟨c, mid, hc, body, rest, hbody, rfl, rfl⟩

theorem parseStatement_do :
    Reads (parseStatement b depth (⟨.keyword .doWord, p⟩ :: ts)) s rest ↔
      ∃ c mid body p₁ p₂,
        Reads (parseBlock b depth ts) body (⟨.keyword .whileWord, p₁⟩ :: mid) ∧
        Reads (parseCondition b depth mid) c (⟨.symbol .semicolon, p₂⟩ :: rest) ∧
        s = some (.doWhile body c p.line) := by
  rw [parseStatement]
  simp only [reads_bind, exists_step, exists_prop, expectLexeme_reads, expectSymbol_reads, reads_ok]
  constructor
  · rintro ⟨body, _, hbody, ⟨_, p₁⟩, mid, ⟨rfl, rfl⟩, c, _, hc, _, _, ⟨p₂, _, rfl⟩, rfl, rfl⟩
    exact ⟨c, mid, body, p₁, p₂, hbody, hc, rfl⟩
  · rintro ⟨c, mid, body, p₁, p₂, hbody, hc, rfl⟩
    exact ⟨body, _, hbody, _, mid, ⟨rfl, rfl⟩, c, _, hc, _, rest, ⟨p₂, rfl, rfl⟩, rfl, rfl⟩

theorem parseStatement_repeat :
    Reads (parseStatement b depth (⟨.keyword .repeatWord, p⟩ :: ts)) s rest ↔
      ∃ count mid body, Reads (parseCount b ⟨.keyword .repeatWord, p⟩ ts) count mid ∧
        Reads (parseBlock b depth mid) body rest ∧ s = some (.repeatLoop count body p.line) := by
  rw [parseStatement]
  simp only [reads_bind, exists_step, exists_prop, reads_ok]
  constructor
  · rintro ⟨count, mid, hcount, body, _, hbody, rfl, rfl⟩
    exact ⟨count, mid, body, hcount, hbody, rfl⟩
  · rintro ⟨count, mid, body, hcount, hbody, rfl⟩
    exact ⟨count, mid, hcount, body, rest, hbody, rfl, rfl⟩

/-- A statement is read in one of these ways. -/
theorem parseStatement_reads :
    Reads (parseStatement b depth ts) s rest ↔ StatementRead b depth ts s rest := by
  constructor
  · intro h
    cases ts with
    | nil => simp [parseStatement, not_reads_failHere] at h
    | cons t ts =>
      obtain ⟨l, p⟩ := t
      cases l with
      | word name =>
        obtain ⟨c, p₁, hc, rfl⟩ := parseStatement_word.1 h
        exact .call hc
      | number digits => simp [parseStatement, not_reads_failHere] at h
      | symbol x =>
        cases x with
        | semicolon =>
          obtain ⟨rfl, rfl⟩ := parseStatement_semicolon.1 h
          exact .empty
        | _ => simp [parseStatement, not_reads_failHere] at h
      | keyword k =>
        cases k with
        | ifWord =>
          obtain ⟨s', hs, rfl⟩ := parseStatement_if.1 h
          exact .ifElse hs
        | whileWord =>
          obtain ⟨c, mid, body, hc, hbody, rfl⟩ := parseStatement_while.1 h
          exact .whileLoop hc hbody
        | doWord =>
          obtain ⟨c, mid, body, p₁, p₂, hbody, hc, rfl⟩ := parseStatement_do.1 h
          exact .doWhile hbody hc
        | repeatWord =>
          obtain ⟨count, mid, body, hcount, hbody, rfl⟩ := parseStatement_repeat.1 h
          exact .repeatLoop hcount hbody
        | elseWord => simp [parseStatement, not_reads_failHere] at h
        | _ => simp [parseStatement, failAt, not_reads_error] at h
  · intro h
    cases h with
    | empty => exact parseStatement_semicolon.2 ⟨rfl, rfl⟩
    | call hc => cases hc with
      | call hargs => exact parseStatement_word.2 ⟨_, _, .call hargs, rfl⟩
    | ifElse hs => exact parseStatement_if.2 ⟨_, hs, rfl⟩
    | whileLoop hc hbody => exact parseStatement_while.2 ⟨_, _, _, hc, hbody, rfl⟩
    | doWhile hbody hc => exact parseStatement_do.2 ⟨_, _, _, _, _, hbody, hc, rfl⟩
    | repeatLoop hcount hbody => exact parseStatement_repeat.2 ⟨_, _, _, hcount, hbody, rfl⟩

end Keywords

theorem parseIf_reads {s : Statement} :
    Reads (parseIf b depth t ts) s rest ↔
      ∃ c mid thenBody after elseBody, Reads (parseCondition b depth ts) c mid ∧
        Reads (parseBlock b depth mid) thenBody after ∧
        Pauses (parseElse b depth after) elseBody rest ∧
        s = .ifElse c thenBody elseBody t.position.line := by
  rw [parseIf]
  simp only [reads_bind, exists_step, exists_pause, exists_prop, reads_ok]
  constructor
  · rintro ⟨c, mid, hc, thenBody, after, hthen, elseBody, _, helse, rfl, rfl⟩
    exact ⟨c, mid, thenBody, after, elseBody, hc, hthen, helse, rfl⟩
  · rintro ⟨c, mid, thenBody, after, elseBody, hc, hthen, helse, rfl⟩
    exact ⟨c, mid, hc, thenBody, after, hthen, elseBody, rest, helse, rfl, rfl⟩

/-- The ways in which an `else` part is read; the last is that there is none. -/
inductive ElseRead (b : Bounds) (depth : Nat) :
    List Token → List Statement → List Token → Prop where
  | chain {ts rest : List Token} {s : Statement} {p p₁ : Position} (room : depth + 1 ≤ b.limit)
      (statement : Reads (parseIf b (depth + 1) ⟨.keyword .ifWord, p₁⟩ ts) s rest) :
      ElseRead b depth (⟨.keyword .elseWord, p⟩ :: ⟨.keyword .ifWord, p₁⟩ :: ts) [s] rest
  | block {ts rest : List Token} {body : List Statement} {p : Position}
      (block : Reads (parseBlock b depth ts) body rest) :
      ElseRead b depth (⟨.keyword .elseWord, p⟩ :: ts) body rest
  | nothing {ts : List Token} (other : ¬ Begins (.keyword .elseWord) ts) : ElseRead b depth ts [] ts

theorem parseElse_pauses {body : List Statement} :
    Pauses (parseElse b depth ts) body rest ↔ ElseRead b depth ts body rest := by
  constructor
  · intro h
    unfold parseElse at h
    split at h
    · simp only [pauses_bind, exists_step, exists_prop, checkLevels_ok, pauses_ok] at h
      obtain ⟨_, hroom, s, _, hs, rfl, rfl⟩ := h
      exact .chain hroom hs
    · simp only [pauses_bind, exists_step, exists_prop, pauses_ok] at h
      obtain ⟨_, _, hbody, rfl, rfl⟩ := h
      exact .block hbody
    · rename_i hother
      obtain ⟨rfl, rfl⟩ := pauses_ok.1 h
      refine .nothing ?_
      rintro ⟨p, mid, rfl⟩
      exact hother p mid rfl
  · intro h
    cases h with
    | chain hroom hs =>
      rw [parseElse]
      simp only [pauses_bind, exists_step, exists_prop, checkLevels_ok, pauses_ok]
      exact ⟨⟨⟩, hroom, _, _, hs, rfl, rfl⟩
    | block hbody =>
      obtain ⟨p, mid, rfl, hroom, hrow⟩ := parseBlock_reads.1 hbody
      rw [parseElse]
      · simp only [pauses_bind, exists_step, exists_prop, pauses_ok]
        exact ⟨_, _, hbody, rfl, rfl⟩
      · rintro _ _ ⟨⟩
    | nothing hother =>
      unfold parseElse
      split
      · exact absurd ⟨_, _, rfl⟩ hother
      · exact absurd ⟨_, _, rfl⟩ hother
      · exact pauses_ok.2 ⟨rfl, rfl⟩

/-! ### Texts -/

theorem parseDefinition_reads {d : Definition} :
    Reads (parseDefinition b ts) d rest ↔
      ∃ name p p₁ p₂ mid body, ts = ⟨.word name, p⟩ :: ⟨.symbol .leftParen, p₁⟩ ::
          ⟨.symbol .rightParen, p₂⟩ :: mid ∧
        Reads (parseBlock b 0 mid) body rest ∧ d = ⟨name, body, p⟩ := by
  simp only [parseDefinition, reads_bind, exists_step, Prod.exists, expectName_reads,
    expectSymbol_reads, parseArguments_reads]
  constructor
  · rintro ⟨name, p, _, rfl, _, _, ⟨p₁, _, rfl⟩, arguments, after, ⟨p₂, hargs⟩, h⟩
    cases arguments with
    | nil =>
      simp only [List.isEmpty_nil, if_true, reads_bind, exists_step, exists_prop, reads_ok] at h
      obtain ⟨body, _, hbody, rfl, rfl⟩ := h
      obtain rfl := argumentsText_nil.1 hargs
      exact ⟨name, p, p₁, p₂, after, body, rfl, hbody, rfl⟩
    | cons a others => simp [not_reads_error] at h
  · rintro ⟨name, p, p₁, p₂, mid, body, rfl, hbody, rfl⟩
    refine ⟨name, p, _, rfl, _, _, ⟨p₁, rfl, rfl⟩, [], mid, ⟨p₂, .none⟩, ?_⟩
    simp only [List.isEmpty_nil, if_true, reads_bind, exists_step, exists_prop, reads_ok]
    exact ⟨body, rest, hbody, rfl, rfl⟩

/-- The ways in which a text is read. -/
inductive ListingRead (b : Bounds) : List Token → Listing → Prop where
  | nil : ListingRead b [] ⟨[], []⟩
  | definition {ts mid : List Token} {k : Keyword} {p : Position} {d : Definition} {later : Listing}
      (keyword : DefinitionKeyword k) (first : Reads (parseDefinition b ts) d mid)
      (others : parseListing b mid = .ok later) :
      ListingRead b (⟨.keyword k, p⟩ :: ts) ⟨d :: later.definitions, later.loose⟩
  | statement {ts mid : List Token} {s : Option Statement} {later : Listing}
      (other : ∀ k, DefinitionKeyword k → ¬ Begins (.keyword k) ts)
      (first : Reads (parseStatement b 0 ts) s mid) (others : parseListing b mid = .ok later) :
      ListingRead b ts ⟨later.definitions, s.toList ++ later.loose⟩

theorem definitionKeyword_iff {l : Lexeme} :
    (∃ k, DefinitionKeyword k ∧ l = .keyword k) ↔
      l = .keyword .function ∨ l = .keyword .void := by
  constructor
  · rintro ⟨k, hk, rfl⟩
    cases hk with
    | function => exact .inl rfl
    | void => exact .inr rfl
  · rintro (rfl | rfl)
    · exact ⟨_, .function, rfl⟩
    · exact ⟨_, .void, rfl⟩

theorem parseListing_ok {listing : Listing} :
    parseListing b ts = .ok listing ↔ ListingRead b ts listing := by
  constructor
  · intro h
    cases ts with
    | nil =>
      rw [parseListing, Except.ok.injEq] at h
      exact h ▸ .nil
    | cons t ts =>
      rw [parseListing] at h
      split at h
      · rename_i hkeyword
        obtain ⟨k, hk, hl⟩ := definitionKeyword_iff.2 hkeyword
        simp only [bind_eq_ok, exists_step, exists_prop, Except.ok.injEq] at h
        obtain ⟨d, mid, hd, later, hlater, rfl⟩ := h
        obtain ⟨l, p⟩ := t
        obtain rfl : l = .keyword k := hl
        exact .definition hk hd hlater
      · rename_i hkeyword
        simp only [bind_eq_ok, exists_step, exists_prop, Except.ok.injEq] at h
        obtain ⟨s, mid, hs, later, hlater, rfl⟩ := h
        refine .statement ?_ hs hlater
        intro k hk hbegins
        exact hkeyword (definitionKeyword_iff.1 ⟨k, hk, begins_cons.1 hbegins⟩)
  · intro h
    cases h with
    | nil => rw [parseListing]
    | definition hk hd hlater =>
      rw [parseListing, if_pos (definitionKeyword_iff.1 ⟨_, hk, rfl⟩)]
      simp only [bind_eq_ok, exists_step, exists_prop, Except.ok.injEq]
      exact ⟨_, _, hd, _, hlater, rfl⟩
    | statement hother hs hlater =>
      cases ts with
      | nil => cases parseStatement_reads.1 hs with
        | call hc => cases hc
      | cons t ts =>
        rw [parseListing, if_neg]
        · simp only [bind_eq_ok, exists_step, exists_prop, Except.ok.injEq]
          exact ⟨_, _, hs, _, hlater, rfl⟩
        · intro hkeyword
          obtain ⟨k, hk, hl⟩ := definitionKeyword_iff.2 hkeyword
          exact hother k hk (begins_cons.2 hl)

end GridRobot.Source
