import GridRobot.Proofs.Source.Overrun
import GridRobot.Proofs.Source.Soundness

/-!
# Texts that are cut at a count

A text is cut at a `repeat` with too long a count when everything before the count is in the grammar
and within the limits. What follows the count does not matter, and need not be in the grammar.

## Main definitions

* `BlockCut`, `RowCut`, `StatementCut`, `IfCut` and `ElseCut` say so of parts of a text, with the
  levels that are open around them.
* `ListingCut` says so of a whole text.

## Main statements

* `statementCut_of_overruns`, `listingCut_of_overruns`: a reading that meets too long a count reads a
  text that is cut there.
* `ListingCut.not_short`: a text that is cut holds a number which is too long.
-/

namespace GridRobot.Source

mutual

/-- A block that is cut, with `depth` levels open around it. -/
inductive BlockCut (limit : Nat) : Nat → List Token → Prop where
  | braces {depth : Nat} {ts : List Token} {p : Position} :
      depth + 1 ≤ limit → RowCut limit (depth + 1) ts →
      BlockCut limit depth (⟨.symbol .leftBrace, p⟩ :: ts)

/-- A row of statements that is cut. -/
inductive RowCut (limit : Nat) : Nat → List Token → Prop where
  | here {depth : Nat} {ts : List Token} : StatementCut limit depth ts → RowCut limit depth ts
  | later {depth n : Nat} {ts mid : List Token} {s : Option Statement} :
      StatementText ts s n mid → depth + n ≤ limit → Low limit s.toList →
      RowCut limit depth mid → RowCut limit depth ts

/-- A statement that is cut: at its own count, in its block, or in the blocks of an `if`. -/
inductive StatementCut (limit : Nat) : Nat → List Token → Prop where
  | count {depth : Nat} {ts : List Token} {digits : String} {p p₁ p₂ p₃ : Position} :
      Text.maxDigits < digits.toList.length →
      StatementCut limit depth
        (⟨.keyword .repeatWord, p⟩ :: ⟨.symbol .leftParen, p₁⟩ :: ⟨.number digits, p₂⟩ ::
          ⟨.symbol .rightParen, p₃⟩ :: ts)
  | repeatLoop {depth : Nat} {ts : List Token} {digits : String} {p p₁ p₂ p₃ : Position} :
      digits.toList.length ≤ Text.maxDigits → BlockCut limit depth ts →
      StatementCut limit depth
        (⟨.keyword .repeatWord, p⟩ :: ⟨.symbol .leftParen, p₁⟩ :: ⟨.number digits, p₂⟩ ::
          ⟨.symbol .rightParen, p₃⟩ :: ts)
  | whileLoop {depth n : Nat} {ts mid : List Token} {c : Condition} {p : Position} :
      ConditionText ts c n mid → depth + n ≤ limit → c.height ≤ limit → BlockCut limit depth mid →
      StatementCut limit depth (⟨.keyword .whileWord, p⟩ :: ts)
  | doWhile {depth : Nat} {ts : List Token} {p : Position} :
      BlockCut limit depth ts → StatementCut limit depth (⟨.keyword .doWord, p⟩ :: ts)
  | ifElse {depth : Nat} {ts : List Token} : IfCut limit depth ts → StatementCut limit depth ts

/-- An `if` that is cut in its first block or after that. -/
inductive IfCut (limit : Nat) : Nat → List Token → Prop where
  | thenBlock {depth n : Nat} {ts mid : List Token} {c : Condition} {p : Position} :
      ConditionText ts c n mid → depth + n ≤ limit → c.height ≤ limit → BlockCut limit depth mid →
      IfCut limit depth (⟨.keyword .ifWord, p⟩ :: ts)
  | elsePart {depth n m : Nat} {ts mid after : List Token} {c : Condition} {body : List Statement}
      {p : Position} :
      ConditionText ts c n mid → depth + n ≤ limit → c.height ≤ limit →
      BlockText mid body m after → depth + m ≤ limit → Low limit body → ElseCut limit depth after →
      IfCut limit depth (⟨.keyword .ifWord, p⟩ :: ts)

/-- An `else` part that is cut. -/
inductive ElseCut (limit : Nat) : Nat → List Token → Prop where
  | block {depth : Nat} {ts : List Token} {p : Position} :
      BlockCut limit depth ts → ElseCut limit depth (⟨.keyword .elseWord, p⟩ :: ts)
  | chain {depth : Nat} {ts : List Token} {p : Position} :
      depth + 1 ≤ limit → IfCut limit (depth + 1) ts →
      ElseCut limit depth (⟨.keyword .elseWord, p⟩ :: ts)

end

/-- A text that is cut in a definition or in a statement. -/
inductive ListingCut (limit : Nat) : List Token → Prop where
  | definition {ts : List Token} {k : Keyword} {name : String} {p p₁ p₂ p₃ : Position} :
      DefinitionKeyword k → BlockCut limit 0 ts →
      ListingCut limit
        (⟨.keyword k, p⟩ :: ⟨.word name, p₁⟩ :: ⟨.symbol .leftParen, p₂⟩ ::
          ⟨.symbol .rightParen, p₃⟩ :: ts)
  | afterDefinition {n : Nat} {ts mid : List Token} {d : Definition} :
      DefinitionText ts d n mid → n ≤ limit → Low limit d.body → ListingCut limit mid →
      ListingCut limit ts
  | statement {ts : List Token} : StatementCut limit 0 ts → ListingCut limit ts
  | afterStatement {n : Nat} {ts mid : List Token} {s : Option Statement} :
      StatementText ts s n mid → n ≤ limit → Low limit s.toList → ListingCut limit mid →
      ListingCut limit ts

/-! ### Where a reading meets too long a count, the text is cut -/

variable {b : Bounds}

mutual

theorem blockCut_of_overruns {depth : Nat} {ts : List Token}
    (h : Overruns (parseBlock b depth ts)) : BlockCut b.limit depth ts := by
  obtain ⟨p, mid, hts, hroom, hbody⟩ := parseBlock_overruns.1 h
  have hmid : mid.length < ts.length := by simp [hts]
  exact hts ▸ .braces hroom (rowCut_of_overruns hroom hbody)
termination_by (ts.length, 0)

theorem rowCut_of_overruns {depth : Nat} {ts : List Token} (hdepth : depth ≤ b.limit)
    (h : Overruns (parseBody b depth ts)) : RowCut b.limit depth ts := by
  obtain ⟨_, hfirst | ⟨s, mid, hs, hlater⟩⟩ := parseBody_overruns.1 h
  · exact .here (statementCut_of_overruns hdepth hfirst)
  · have hmid := hs.rest_lt
    obtain ⟨n, htext, hn, hlow⟩ := statementText_of_reads hdepth hs
    exact .later htext hn hlow (rowCut_of_overruns hdepth hlater)
termination_by (ts.length, 1)

theorem statementCut_of_overruns {depth : Nat} {ts : List Token} (hdepth : depth ≤ b.limit)
    (h : Overruns (parseStatement b depth ts)) : StatementCut b.limit depth ts := by
  cases parseStatement_overruns.1 h with
  | ifElse hif => exact .ifElse (ifCut_of_overruns hdepth hif)
  | whileLoop hc hblock =>
    have hmid := hc.rest_lt
    obtain ⟨n, htext, hn, hheight⟩ := conditionText_of_reads hdepth hc
    exact .whileLoop htext hn hheight (blockCut_of_overruns hblock)
  | doWhile hblock => exact .doWhile (blockCut_of_overruns hblock)
  | count hcount =>
    obtain ⟨p, p₁, p₂, digits, rest, rfl, hlong⟩ := parseCount_overruns.1 hcount
    exact .count hlong
  | repeatLoop hcount hblock =>
    have hmid := hcount.rest_lt
    have hcut := blockCut_of_overruns hblock
    obtain ⟨p, p₁, p₂, digits, rfl, hread⟩ := parseCount_reads.1 hcount
    exact .repeatLoop (readDigits_ok.1 hread).1 hcut
termination_by (ts.length, 0)
decreasing_by
  all_goals
    subst_vars
    decreasing_tactic

theorem ifCut_of_overruns {depth : Nat} {ts : List Token} {p : Position} (hdepth : depth ≤ b.limit)
    (h : Overruns (parseIf b depth ⟨.keyword .ifWord, p⟩ ts)) :
    IfCut b.limit depth (⟨.keyword .ifWord, p⟩ :: ts) := by
  obtain ⟨c, mid, hc, hblock | ⟨body, after, hblock, helse⟩⟩ := parseIf_overruns.1 h
  · have hmid : mid.length < ts.length := hc.rest_lt
    obtain ⟨n, htext, hn, hheight⟩ := conditionText_of_reads hdepth hc
    exact .thenBlock htext hn hheight (blockCut_of_overruns hblock)
  · have hafter : after.length < ts.length := Nat.lt_trans hblock.rest_lt hc.rest_lt
    obtain ⟨n, htext, hn, hheight⟩ := conditionText_of_reads hdepth hc
    obtain ⟨m, hbody, hm, hlow⟩ := blockText_of_reads hblock
    exact .elsePart htext hn hheight hbody hm hlow (elseCut_of_overruns helse)
termination_by (ts.length, 0)

theorem elseCut_of_overruns {depth : Nat} {ts : List Token}
    (h : Overruns (parseElse b depth ts)) : ElseCut b.limit depth ts := by
  cases parseElse_overruns.1 h with
  | chain hroom hif => exact .chain hroom (ifCut_of_overruns hroom hif)
  | block hblock => exact .block (blockCut_of_overruns hblock)
termination_by (ts.length, 0)

end

theorem listingCut_of_overruns {ts : List Token} (h : Overruns (parseListing b ts)) :
    ListingCut b.limit ts := by
  cases parseListing_overruns.1 h with
  | definition hk hfirst =>
    obtain ⟨name, p, p₁, p₂, mid, rfl, hblock⟩ := parseDefinition_overruns.1 hfirst
    exact .definition hk (blockCut_of_overruns hblock)
  | afterDefinition hk hfirst hlater =>
    have hmid := hfirst.rest_lt
    obtain ⟨n, htext, hn, hlow⟩ := definitionText_of_reads hk hfirst
    exact .afterDefinition htext hn hlow (listingCut_of_overruns hlater)
  | statement _ hfirst => exact .statement (statementCut_of_overruns (Nat.zero_le _) hfirst)
  | afterStatement _ hfirst hlater =>
    have hmid := hfirst.rest_lt
    obtain ⟨n, htext, hn, hlow⟩ := statementText_of_reads (Nat.zero_le _) hfirst
    exact .afterStatement htext (by omega) hlow (listingCut_of_overruns hlater)
termination_by ts.length
decreasing_by
  all_goals
    subst_vars
    decreasing_tactic

/-! ### Texts without long numbers are not cut -/

mutual

theorem BlockCut.not_short {limit depth : Nat} {ts : List Token} (h : BlockCut limit depth ts) :
    ¬ ShortNumbers ts := by
  match h with
  | .braces _ hrow => exact fun hshort => hrow.not_short hshort.tail
termination_by structural h

theorem RowCut.not_short {limit depth : Nat} {ts : List Token} (h : RowCut limit depth ts) :
    ¬ ShortNumbers ts := by
  match h with
  | .here hs => exact hs.not_short
  | .later htext _ _ hrow => exact fun hshort => hrow.not_short (hshort.suffix htext.suffix)
termination_by structural h

theorem StatementCut.not_short {limit depth : Nat} {ts : List Token}
    (h : StatementCut limit depth ts) : ¬ ShortNumbers ts := by
  match h with
  | .count hlong =>
    intro hshort
    have hdigits := hshort.tail.tail.head
    omega
  | .repeatLoop _ hblock => exact fun hshort => hblock.not_short hshort.tail.tail.tail.tail
  | .whileLoop hcond _ _ hblock =>
    exact fun hshort => hblock.not_short (hshort.tail.suffix hcond.suffix)
  | .doWhile hblock => exact fun hshort => hblock.not_short hshort.tail
  | .ifElse hif => exact hif.not_short
termination_by structural h

theorem IfCut.not_short {limit depth : Nat} {ts : List Token} (h : IfCut limit depth ts) :
    ¬ ShortNumbers ts := by
  match h with
  | .thenBlock hcond _ _ hblock =>
    exact fun hshort => hblock.not_short (hshort.tail.suffix hcond.suffix)
  | .elsePart hcond _ _ hblock _ _ helse =>
    intro hshort
    have hmid := hshort.tail.suffix hcond.suffix
    exact helse.not_short (hmid.suffix hblock.suffix)
termination_by structural h

theorem ElseCut.not_short {limit depth : Nat} {ts : List Token} (h : ElseCut limit depth ts) :
    ¬ ShortNumbers ts := by
  match h with
  | .block hblock => exact fun hshort => hblock.not_short hshort.tail
  | .chain _ hif => exact fun hshort => hif.not_short hshort.tail
termination_by structural h

end

theorem ListingCut.not_short {limit : Nat} {ts : List Token} (h : ListingCut limit ts) :
    ¬ ShortNumbers ts := by
  induction h with
  | definition _ hblock => exact fun hshort => hblock.not_short hshort.tail.tail.tail.tail
  | afterDefinition htext _ _ _ ih => exact fun hshort => ih (hshort.suffix htext.suffix)
  | statement hs => exact hs.not_short
  | afterStatement htext _ _ _ ih => exact fun hshort => ih (hshort.suffix htext.suffix)

end GridRobot.Source
