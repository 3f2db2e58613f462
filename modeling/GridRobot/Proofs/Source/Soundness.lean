import GridRobot.Proofs.Source.Parser

/-!
# What is read is derived

Whatever tree a text is read as, the grammar derives it, with no more levels and no higher
conditions than the limit allows.

## Main statements

* `orText_of_reads`: a condition that is read is derived.
* `statementText_of_reads`: a statement that is read is derived.
* `listingText_of_ok`: a text that is read is derived.

## Design notes

The proofs follow the reading functions in their recursion, and so in the measures by which these
end. A function that goes on from a tree on its left is given what derives that tree.
-/

namespace GridRobot.Source

variable {b : Bounds}

/-! ### Conditions -/

mutual

/-- A condition that is read is derived. -/
theorem orText_of_reads {depth : Nat} {ts rest : List Token} {c : Condition}
    (hdepth : depth ≤ b.limit) (h : Reads (parseOr b depth ts) c rest) :
    ∃ n, OrText ts c n rest ∧ depth + n ≤ b.limit ∧ c.height ≤ b.limit := by
  obtain ⟨left, mid, hleft, hmore⟩ := parseOr_reads.1 h
  have hlt := hleft.rest_lt
  obtain ⟨n, htext, hn, hheight⟩ := andText_of_reads hdepth hleft
  exact orText_of_pauses (.one htext) hn hheight hmore
termination_by (ts.length, 3)

theorem orText_of_pauses {depth n : Nat} {start ts rest : List Token} {left c : Condition}
    (hleft : OrText start left n ts) (hn : depth + n ≤ b.limit) (hheight : left.height ≤ b.limit)
    (h : Pauses (parseOrMore b depth left ts) c rest) :
    ∃ n, OrText start c n rest ∧ depth + n ≤ b.limit ∧ c.height ≤ b.limit := by
  rcases parseOrMore_pauses.1 h with
    ⟨_, rfl, rfl⟩ | ⟨p, mid, right, after, hts, hright, hboth, hmore⟩
  · exact ⟨n, hleft, hn, hheight⟩
  · have hmid : mid.length < ts.length := by simp [hts]
    have hafter : after.length < ts.length := Nat.lt_trans hright.rest_lt hmid
    obtain ⟨m, htext, hm, _⟩ := andText_of_reads (by omega) hright
    rw [hts] at hleft
    exact orText_of_pauses (.more hleft htext) (by omega) hboth hmore
termination_by (ts.length, 0)

theorem andText_of_reads {depth : Nat} {ts rest : List Token} {c : Condition}
    (hdepth : depth ≤ b.limit) (h : Reads (parseAnd b depth ts) c rest) :
    ∃ n, AndText ts c n rest ∧ depth + n ≤ b.limit ∧ c.height ≤ b.limit := by
  obtain ⟨left, mid, hleft, hmore⟩ := parseAnd_reads.1 h
  have hlt := hleft.rest_lt
  obtain ⟨n, htext, hn, hheight⟩ := unaryText_of_reads hdepth hleft
  exact andText_of_pauses (.one htext) hn hheight hmore
termination_by (ts.length, 2)

theorem andText_of_pauses {depth n : Nat} {start ts rest : List Token} {left c : Condition}
    (hleft : AndText start left n ts) (hn : depth + n ≤ b.limit) (hheight : left.height ≤ b.limit)
    (h : Pauses (parseAndMore b depth left ts) c rest) :
    ∃ n, AndText start c n rest ∧ depth + n ≤ b.limit ∧ c.height ≤ b.limit := by
  rcases parseAndMore_pauses.1 h with
    ⟨_, rfl, rfl⟩ | ⟨p, mid, right, after, hts, hright, hboth, hmore⟩
  · exact ⟨n, hleft, hn, hheight⟩
  · have hmid : mid.length < ts.length := by simp [hts]
    have hafter : after.length < ts.length := Nat.lt_trans hright.rest_lt hmid
    obtain ⟨m, htext, hm, _⟩ := unaryText_of_reads (by omega) hright
    rw [hts] at hleft
    exact andText_of_pauses (.more hleft htext) (by omega) hboth hmore
termination_by (ts.length, 0)

theorem unaryText_of_reads {depth : Nat} {ts rest : List Token} {c : Condition}
    (hdepth : depth ≤ b.limit) (h : Reads (parseUnary b depth ts) c rest) :
    ∃ n, UnaryText ts c n rest ∧ depth + n ≤ b.limit ∧ c.height ≤ b.limit := by
  cases parseUnary_reads.1 h with
  | bang hroom hoperand hheight =>
    obtain ⟨n, htext, hn, _⟩ := unaryText_of_reads hroom hoperand
    exact ⟨n + 1, .bang htext, by omega, hheight⟩
  | group hroom hinner =>
    obtain ⟨n, htext, hn, hheight⟩ := orText_of_reads hroom hinner
    exact ⟨n + 1, .group htext, by omega, hheight⟩
  | call hcall => exact ⟨0, .call hcall, hdepth, by simp [Condition.height]⟩
termination_by (ts.length, 1)

end

theorem conditionText_of_reads {depth : Nat} {ts rest : List Token} {c : Condition}
    (hdepth : depth ≤ b.limit) (h : Reads (parseCondition b depth ts) c rest) :
    ∃ n, ConditionText ts c n rest ∧ depth + n ≤ b.limit ∧ c.height ≤ b.limit := by
  obtain ⟨p, p₁, mid, rfl, hc⟩ := parseCondition_reads.1 h
  obtain ⟨n, htext, hn, hheight⟩ := orText_of_reads hdepth hc
  exact ⟨n, .paren htext, hn, hheight⟩

/-! ### Statements -/

theorem readDigits_ok {cs : List Char} {n : Nat} :
    Text.readDigits cs = .ok n ↔ cs.length ≤ Text.maxDigits ∧ n = Text.digitsValue cs := by
  rw [Text.readDigits]
  by_cases h : cs.length ≤ Text.maxDigits
  · simp [h, eq_comm]
  · simp [h]

/-- A count that is short enough is read. -/
theorem parseCount_short {t : Token} {rest : List Token} {digits : String} {p p₁ p₂ : Position}
    (h : digits.toList.length ≤ Text.maxDigits) :
    Reads (parseCount b t (⟨.symbol .leftParen, p⟩ :: ⟨.number digits, p₁⟩ ::
      ⟨.symbol .rightParen, p₂⟩ :: rest)) (Text.digitsValue digits.toList) rest :=
  parseCount_reads.2 ⟨p, p₁, p₂, digits, rfl, readDigits_ok.2 ⟨h, rfl⟩⟩

mutual

theorem blockText_of_reads {depth : Nat} {ts rest : List Token} {body : List Statement}
    (h : Reads (parseBlock b depth ts) body rest) :
    ∃ n, BlockText ts body n rest ∧ depth + n ≤ b.limit ∧ Low b.limit body := by
  obtain ⟨p, mid, hts, hroom, hbody⟩ := parseBlock_reads.1 h
  have hmid : mid.length < ts.length := by simp [hts]
  obtain ⟨n, p₁, htext, hn, hlow⟩ := rowText_of_reads hroom hbody
  exact ⟨n + 1, hts ▸ .braces htext, by omega, hlow⟩
termination_by (ts.length, 0)

theorem rowText_of_reads {depth : Nat} {ts rest : List Token} {body : List Statement}
    (hdepth : depth ≤ b.limit) (h : Reads (parseBody b depth ts) body rest) :
    ∃ n p, RowText ts body n (⟨.symbol .rightBrace, p⟩ :: rest) ∧ depth + n ≤ b.limit ∧
      Low b.limit body := by
  rcases parseBody_reads.1 h with ⟨p, rfl, rfl⟩ | ⟨_, s, mid, others, hs, hothers, rfl⟩
  · exact ⟨0, p, .nil, hdepth, low_nil⟩
  · have hmid := hs.rest_lt
    obtain ⟨n, hfirst, hn, hlow⟩ := statementText_of_reads hdepth hs
    obtain ⟨m, p, hrow, hm, hlow'⟩ := rowText_of_reads hdepth hothers
    exact ⟨max n m, p, .cons hfirst hrow, by omega, low_append.2 ⟨hlow, hlow'⟩⟩
termination_by (ts.length, 1)

/-- A statement that is read is derived. -/
theorem statementText_of_reads {depth : Nat} {ts rest : List Token} {s : Option Statement}
    (hdepth : depth ≤ b.limit) (h : Reads (parseStatement b depth ts) s rest) :
    ∃ n, StatementText ts s n rest ∧ depth + n ≤ b.limit ∧ Low b.limit s.toList := by
  cases parseStatement_reads.1 h with
  | empty => exact ⟨0, .empty, hdepth, low_nil⟩
  | call hc => exact ⟨0, .call hc, hdepth, low_call⟩
  | ifElse hs =>
    obtain ⟨n, htext, hn, hlow⟩ := ifText_of_reads hdepth hs
    exact ⟨n, .ifElse htext, hn, hlow⟩
  | whileLoop hc hbody =>
    have hmid := hc.rest_lt
    obtain ⟨n, hcond, hn, hheight⟩ := conditionText_of_reads hdepth hc
    obtain ⟨m, hblock, hm, hlow⟩ := blockText_of_reads hbody
    exact ⟨max n m, .whileLoop hcond hblock, by omega, low_whileLoop.2 ⟨hheight, hlow⟩⟩
  | doWhile hbody hc =>
    obtain ⟨n, hblock, hn, hlow⟩ := blockText_of_reads hbody
    obtain ⟨m, hcond, hm, hheight⟩ := conditionText_of_reads hdepth hc
    exact ⟨max n m, .doWhile hblock hcond, by omega, low_doWhile.2 ⟨hheight, hlow⟩⟩
  | repeatLoop hcount hbody =>
    have hmid := hcount.rest_lt
    obtain ⟨n, hblock, hn, hlow⟩ := blockText_of_reads hbody
    obtain ⟨p, p₁, p₂, digits, rfl, hread⟩ := parseCount_reads.1 hcount
    obtain ⟨_, rfl⟩ := readDigits_ok.1 hread
    exact ⟨n, .repeatLoop hblock, hn, low_repeatLoop.2 hlow⟩
termination_by (ts.length, 0)
decreasing_by
  all_goals
    subst_vars
    decreasing_tactic

theorem ifText_of_reads {depth : Nat} {ts rest : List Token} {s : Statement} {p : Position}
    (hdepth : depth ≤ b.limit) (h : Reads (parseIf b depth ⟨.keyword .ifWord, p⟩ ts) s rest) :
    ∃ n, IfText (⟨.keyword .ifWord, p⟩ :: ts) s n rest ∧ depth + n ≤ b.limit ∧
      Low b.limit [s] := by
  obtain ⟨c, mid, thenBody, after, elseBody, hc, hthen, helse, rfl⟩ := parseIf_reads.1 h
  have hmid : mid.length < ts.length := hc.rest_lt
  have hafter : after.length < ts.length := Nat.lt_trans hthen.rest_lt hmid
  obtain ⟨n, hcond, hn, hheight⟩ := conditionText_of_reads hdepth hc
  obtain ⟨m, hblock, hm, hlow⟩ := blockText_of_reads hthen
  obtain ⟨k, hother, hk, hlow'⟩ := elseText_of_pauses hdepth helse
  exact ⟨max n (max m k), .branches hcond hblock hother, by omega,
    low_ifElse.2 ⟨hheight, hlow, hlow'⟩⟩
termination_by (ts.length, 0)

theorem elseText_of_pauses {depth : Nat} {ts rest : List Token} {body : List Statement}
    (hdepth : depth ≤ b.limit) (h : Pauses (parseElse b depth ts) body rest) :
    ∃ n, ElseText ts body n rest ∧ depth + n ≤ b.limit ∧ Low b.limit body := by
  cases parseElse_pauses.1 h with
  | chain hroom hs =>
    obtain ⟨n, htext, hn, hlow⟩ := ifText_of_reads hroom hs
    exact ⟨n + 1, .chain htext, by omega, hlow⟩
  | block hbody =>
    obtain ⟨n, htext, hn, hlow⟩ := blockText_of_reads hbody
    exact ⟨n, .block htext, hn, hlow⟩
  | nothing hother => exact ⟨0, .nothing, hdepth, low_nil⟩
termination_by (ts.length, 0)

end

/-! ### Texts -/

theorem definitionText_of_reads {ts rest : List Token} {d : Definition} {k : Keyword}
    {p : Position} (hk : DefinitionKeyword k) (h : Reads (parseDefinition b ts) d rest) :
    ∃ n, DefinitionText (⟨.keyword k, p⟩ :: ts) d n rest ∧ n ≤ b.limit ∧ Low b.limit d.body := by
  obtain ⟨name, p₁, p₂, p₃, mid, body, rfl, hbody, rfl⟩ := parseDefinition_reads.1 h
  obtain ⟨n, hblock, hn, hlow⟩ := blockText_of_reads hbody
  exact ⟨n, .definition hk hblock, by omega, hlow⟩

theorem listingText_of_ok {ts : List Token} {listing : Listing}
    (h : parseListing b ts = .ok listing) :
    ∃ n, ListingText ts listing n ∧ n ≤ b.limit ∧
      ∀ c ∈ listing.conditions, c.height ≤ b.limit := by
  cases parseListing_ok.1 h with
  | nil => exact ⟨0, .nil, by omega, by simp [Listing.conditions, bodyConditions]⟩
  | definition hk hd hothers =>
    have hmid := hd.rest_lt
    obtain ⟨n, hfirst, hn, hlow⟩ := definitionText_of_reads hk hd
    obtain ⟨m, hlater, hm, hheights⟩ := listingText_of_ok hothers
    exact ⟨max n m, .definition hfirst hlater, by omega,
      forall_conditions_definition.2 ⟨hlow, hheights⟩⟩
  | statement _ hs hothers =>
    have hmid := hs.rest_lt
    obtain ⟨n, hfirst, hn, hlow⟩ := statementText_of_reads (Nat.zero_le _) hs
    obtain ⟨m, hlater, hm, hheights⟩ := listingText_of_ok hothers
    exact ⟨max n m, .statement hfirst hlater, by omega,
      forall_conditions_statement.2 ⟨hlow, hheights⟩⟩
termination_by ts.length
decreasing_by
  all_goals
    subst_vars
    decreasing_tactic

end GridRobot.Source
