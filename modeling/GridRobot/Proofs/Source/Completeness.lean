import Mathlib
import GridRobot.Proofs.Source.Cut

/-!
# What is derived is read

Whatever tree the grammar derives from a text is the tree as which the text is read, when the limit
is high enough for its levels and its conditions.

## Main statements

* `OrText.reads`: a condition that is derived is read.
* `StatementText.reads`, `ListingText.reads`: so are statements and texts, unless a count is too long.
* `ShortNumbers.not_overruns`: no count is too long in a text whose numbers are short.
* `parse_eq_ok_iff`: a text is read as a tree exactly when the grammar derives the tree within the
  limit, and it derives no two trees.

## Design notes

A reading takes as much as it can, while a derivation may stop earlier. So a reading is compared with
a derivation only where what is left cannot go on the tree: no `&&` after a condition, no `else` after
a statement. A derivation of a whole text leaves no such thing behind any of its parts. That no count
is too long is assumed of the reading, and so the lemmas also serve for what stands before a count at
which a text is cut.
-/

namespace GridRobot.Source

variable {b : Bounds}

/-! ### Conditions -/

mutual

/-- A condition that is derived is read, and the reading goes on from there. -/
theorem OrText.reads {depth n : Nat} {ts mid rest : List Token} {c v : Condition}
    (h : OrText ts c n mid) (hn : depth + n ≤ b.limit) (hheight : c.height ≤ b.limit)
    (hfollow : ¬ Begins (.symbol .both) mid) (hmore : Pauses (parseOrMore b depth c mid) v rest) :
    Reads (parseOr b depth ts) v rest := by
  match h with
  | .one hand =>
    have hread := hand.reads hn hheight (parseAndMore_stop hfollow)
    exact parseOr_reads.2 ⟨c, mid, hread, hmore⟩
  | .more hleft hright =>
    have hboth := hheight
    rw [Condition.height] at hheight
    have hread : Reads (parseAnd b depth _) _ mid :=
      hright.reads (by omega) (by omega) (parseAndMore_stop hfollow)
    refine hleft.reads (by omega) (by omega) (by simp) ?_
    exact parseOrMore_pauses.2 (.inr ⟨_, _, _, _, rfl, hread, hboth, hmore⟩)
termination_by structural h

theorem AndText.reads {depth n : Nat} {ts mid rest : List Token} {c v : Condition}
    (h : AndText ts c n mid) (hn : depth + n ≤ b.limit) (hheight : c.height ≤ b.limit)
    (hmore : Pauses (parseAndMore b depth c mid) v rest) :
    Reads (parseAnd b depth ts) v rest := by
  match h with
  | .one hunary => exact parseAnd_reads.2 ⟨c, mid, hunary.reads hn hheight, hmore⟩
  | .more hleft hright =>
    have hboth := hheight
    rw [Condition.height] at hheight
    have hread : Reads (parseUnary b depth _) _ mid := hright.reads (by omega) (by omega)
    refine hleft.reads (by omega) (by omega) ?_
    exact parseAndMore_pauses.2 (.inr ⟨_, _, _, _, rfl, hread, hboth, hmore⟩)
termination_by structural h

theorem UnaryText.reads {depth n : Nat} {ts rest : List Token} {c : Condition}
    (h : UnaryText ts c n rest) (hn : depth + n ≤ b.limit) (hheight : c.height ≤ b.limit) :
    Reads (parseUnary b depth ts) c rest := by
  match h with
  | .bang hoperand =>
    have hboth := hheight
    rw [Condition.height] at hheight
    have hread : Reads (parseUnary b (depth + 1) _) _ rest :=
      hoperand.reads (by omega) (by omega)
    exact parseUnary_reads.2 (.bang (by omega) hread hboth)
  | .group hinner =>
    have hread : Reads (parseOr b (depth + 1) _) c _ :=
      hinner.reads (by omega) hheight (by simp) (parseOrMore_stop (by simp))
    exact parseUnary_reads.2 (.group (by omega) hread)
  | .call hcall => exact parseUnary_reads.2 (.call hcall)
termination_by structural h

end

theorem ConditionText.reads {depth n : Nat} {ts rest : List Token} {c : Condition}
    (h : ConditionText ts c n rest) (hn : depth + n ≤ b.limit) (hheight : c.height ≤ b.limit) :
    Reads (parseCondition b depth ts) c rest := by
  obtain ⟨hinner⟩ := h
  have hread := hinner.reads hn hheight (by simp) (parseOrMore_stop (by simp))
  exact parseCondition_reads.2 ⟨_, _, _, rfl, hread⟩

/-! ### Statements -/

mutual

theorem BlockText.reads {depth n : Nat} {ts rest : List Token} {body : List Statement}
    (h : BlockText ts body n rest) (hn : depth + n ≤ b.limit) (hlow : Low b.limit body)
    (hfits : ¬ Overruns (parseBlock b depth ts)) : Reads (parseBlock b depth ts) body rest := by
  match h with
  | .braces hrow =>
    have hroom : depth + 1 ≤ b.limit := by omega
    have hread : Reads (parseBody b (depth + 1) _) body rest :=
      hrow.reads rfl (by omega) hlow fun hover =>
        hfits (parseBlock_overruns.2 ⟨_, _, rfl, hroom, hover⟩)
    exact parseBlock_reads.2 ⟨_, _, rfl, hroom, hread⟩
termination_by structural h

/-- A row of statements is read up to a closing brace. -/
theorem RowText.reads {depth n : Nat} {ts left rest : List Token} {body : List Statement}
    {p : Position} (h : RowText ts body n left) (hleft : left = ⟨.symbol .rightBrace, p⟩ :: rest)
    (hn : depth + n ≤ b.limit) (hlow : Low b.limit body)
    (hfits : ¬ Overruns (parseBody b depth ts)) : Reads (parseBody b depth ts) body rest := by
  match h with
  | .nil => exact parseBody_reads.2 (.inl ⟨p, hleft, rfl⟩)
  | .cons hfirst hothers =>
    obtain ⟨hlow₁, hlow₂⟩ := low_append.1 hlow
    have hbrace : ¬ Begins (.symbol .rightBrace) ts := hfirst.not_begins nofun
    have helse : ¬ Begins (.keyword .elseWord) _ := hothers.not_begins nofun (by simp [hleft])
    have hread : Reads (parseStatement b depth ts) _ _ :=
      hfirst.reads (by omega) hlow₁ helse fun hover =>
        hfits (parseBody_overruns.2 ⟨hbrace, .inl hover⟩)
    have hreads : Reads (parseBody b depth _) _ rest :=
      hothers.reads hleft (by omega) hlow₂ fun hover =>
        hfits (parseBody_overruns.2 ⟨hbrace, .inr ⟨_, _, hread, hover⟩⟩)
    exact parseBody_reads.2 (.inr ⟨hbrace, _, _, _, hread, hreads, rfl⟩)
termination_by structural h

/-- A statement that is derived is read, unless an `else` could follow it. -/
theorem StatementText.reads {depth n : Nat} {ts rest : List Token} {s : Option Statement}
    (h : StatementText ts s n rest) (hn : depth + n ≤ b.limit) (hlow : Low b.limit s.toList)
    (hfollow : ¬ Begins (.keyword .elseWord) rest)
    (hfits : ¬ Overruns (parseStatement b depth ts)) :
    Reads (parseStatement b depth ts) s rest := by
  match h with
  | .empty => exact parseStatement_reads.2 .empty
  | .call hcall => exact parseStatement_reads.2 (.call hcall)
  | .ifElse hif =>
    obtain ⟨p, mid, rfl, hread⟩ := hif.reads hn hlow hfollow fun p mid hts hover =>
      hfits (hts ▸ parseStatement_overruns.2 (.ifElse hover))
    exact parseStatement_reads.2 (.ifElse hread)
  | .whileLoop hcond hblock =>
    obtain ⟨hheight, hlow'⟩ := low_whileLoop.1 hlow
    have hread : Reads (parseCondition b depth _) _ _ := hcond.reads (by omega) hheight
    have hbody : Reads (parseBlock b depth _) _ rest :=
      hblock.reads (by omega) hlow' fun hover =>
        hfits (parseStatement_overruns.2 (.whileLoop hread hover))
    exact parseStatement_reads.2 (.whileLoop hread hbody)
  | .doWhile hblock hcond =>
    obtain ⟨hheight, hlow'⟩ := low_doWhile.1 hlow
    have hbody : Reads (parseBlock b depth _) _ _ :=
      hblock.reads (by omega) hlow' fun hover =>
        hfits (parseStatement_overruns.2 (.doWhile hover))
    have hread : Reads (parseCondition b depth _) _ _ := hcond.reads (by omega) hheight
    exact parseStatement_reads.2 (.doWhile hbody hread)
  | @StatementText.repeatLoop _ _ digits _ _ _ _ _ _ hblock =>
    have hdigits : digits.toList.length ≤ Text.maxDigits := by
      rcases Nat.lt_or_ge Text.maxDigits digits.toList.length with hlong | hshort
      · exact absurd (parseStatement_overruns.2 (.count (parseCount_long hlong))) hfits
      · exact hshort
    have hbody : Reads (parseBlock b depth _) _ rest :=
      hblock.reads hn (low_repeatLoop.1 hlow) fun hover =>
        hfits (parseStatement_overruns.2 (.repeatLoop (parseCount_short hdigits) hover))
    exact parseStatement_reads.2 (.repeatLoop (parseCount_short hdigits) hbody)
termination_by structural h

theorem IfText.reads {depth n : Nat} {ts rest : List Token} {s : Statement}
    (h : IfText ts s n rest) (hn : depth + n ≤ b.limit) (hlow : Low b.limit [s])
    (hfollow : ¬ Begins (.keyword .elseWord) rest)
    (hfits : ∀ p mid, ts = ⟨.keyword .ifWord, p⟩ :: mid →
      ¬ Overruns (parseIf b depth ⟨.keyword .ifWord, p⟩ mid)) :
    ∃ p mid, ts = ⟨.keyword .ifWord, p⟩ :: mid ∧
      Reads (parseIf b depth ⟨.keyword .ifWord, p⟩ mid) s rest := by
  match h with
  | .branches hcond hblock helse =>
    obtain ⟨hheight, hlow₁, hlow₂⟩ := low_ifElse.1 hlow
    have hread : Reads (parseCondition b depth _) _ _ := hcond.reads (by omega) hheight
    have hthen : Reads (parseBlock b depth _) _ _ :=
      hblock.reads (by omega) hlow₁ fun hover =>
        hfits _ _ rfl (parseIf_overruns.2 ⟨_, _, hread, .inl hover⟩)
    have hother : Pauses (parseElse b depth _) _ rest :=
      helse.pauses (by omega) hlow₂ hfollow fun hover =>
        hfits _ _ rfl (parseIf_overruns.2 ⟨_, _, hread, .inr ⟨_, _, hthen, hover⟩⟩)
    exact ⟨_, _, rfl, parseIf_reads.2 ⟨_, _, _, _, _, hread, hthen, hother, rfl⟩⟩
termination_by structural h

theorem ElseText.pauses {depth n : Nat} {ts rest : List Token} {body : List Statement}
    (h : ElseText ts body n rest) (hn : depth + n ≤ b.limit) (hlow : Low b.limit body)
    (hfollow : ¬ Begins (.keyword .elseWord) rest)
    (hfits : ¬ Overruns (parseElse b depth ts)) : Pauses (parseElse b depth ts) body rest := by
  match h with
  | .nothing => exact parseElse_pauses.2 (.nothing hfollow)
  | .block hblock =>
    have hread := hblock.reads hn hlow fun hover => hfits (parseElse_overruns.2 (.block hover))
    exact parseElse_pauses.2 (.block hread)
  | @ElseText.chain _ _ _ m _ hif =>
    have hroom : depth + 1 ≤ b.limit := by omega
    have hm : depth + 1 + m ≤ b.limit := by omega
    obtain ⟨p, mid, rfl, hread⟩ := hif.reads hm hlow hfollow fun p mid hts hover =>
      hfits (hts ▸ parseElse_overruns.2 (.chain hroom hover))
    exact parseElse_pauses.2 (.chain hroom hread)
termination_by structural h

end

/-! ### Texts -/

theorem DefinitionText.reads {n : Nat} {ts rest : List Token} {d : Definition}
    (h : DefinitionText ts d n rest) (hn : n ≤ b.limit) (hlow : Low b.limit d.body)
    (hfits : ∀ k p mid, DefinitionKeyword k → ts = ⟨.keyword k, p⟩ :: mid →
      ¬ Overruns (parseDefinition b mid)) :
    ∃ k p mid, DefinitionKeyword k ∧ ts = ⟨.keyword k, p⟩ :: mid ∧
      Reads (parseDefinition b mid) d rest := by
  obtain ⟨hk, hblock⟩ := h
  have hread : Reads (parseBlock b 0 _) _ rest :=
    hblock.reads (by omega) hlow fun hover =>
      hfits _ _ _ hk rfl (parseDefinition_overruns.2 ⟨_, _, _, _, _, rfl, hover⟩)
  exact ⟨_, _, _, hk, rfl, parseDefinition_reads.2 ⟨_, _, _, _, _, _, rfl, hread, rfl⟩⟩

/-- A text that is derived is read, unless it holds a count that is too long. -/
theorem ListingText.reads {n : Nat} {ts : List Token} {listing : Listing}
    (h : ListingText ts listing n) (hn : n ≤ b.limit)
    (hheights : ∀ c ∈ listing.conditions, c.height ≤ b.limit)
    (hfits : ¬ Overruns (parseListing b ts)) : parseListing b ts = .ok listing := by
  induction h with
  | nil => exact parseListing_ok.2 .nil
  | definition hfirst hlater ih =>
    obtain ⟨hlow, hheights'⟩ := forall_conditions_definition.1 hheights
    obtain ⟨k, p, mid, hk, rfl, hread⟩ := hfirst.reads (by omega) hlow
      fun k p mid hk hts hover => hfits (hts ▸ parseListing_overruns.2 (.definition hk hover))
    have hothers := ih (by omega) hheights' fun hover =>
      hfits (parseListing_overruns.2 (.afterDefinition hk hread hover))
    exact parseListing_ok.2 (.definition hk hread hothers)
  | statement hfirst hlater ih =>
    obtain ⟨hlow, hheights'⟩ := forall_conditions_statement.1 hheights
    have hother : ∀ k, DefinitionKeyword k → ¬ Begins (.keyword k) _ :=
      fun _ hk => hfirst.not_begins_definition hk
    have helse : ¬ Begins (.keyword .elseWord) _ :=
      hlater.not_begins nofun (by rintro _ ⟨⟩ ⟨⟩)
    have hread : Reads (parseStatement b 0 _) _ _ :=
      hfirst.reads (by omega) hlow helse fun hover =>
        hfits (parseListing_overruns.2 (.statement hother hover))
    have hothers := ih (by omega) hheights' fun hover =>
      hfits (parseListing_overruns.2 (.afterStatement hother hread hover))
    exact parseListing_ok.2 (.statement hother hread hothers)

theorem ShortNumbers.not_overruns {ts : List Token} (h : ShortNumbers ts) :
    ¬ Overruns (parseListing b ts) :=
  fun hover => (listingCut_of_overruns hover).not_short h

/-- A text that is derived is read. -/
theorem ListingText.parse {n : Nat} {ts : List Token} {listing : Listing}
    (h : ListingText ts listing n) (hn : n ≤ b.limit)
    (hheights : ∀ c ∈ listing.conditions, c.height ≤ b.limit) (hshort : ShortNumbers ts) :
    parseListing b ts = .ok listing :=
  h.reads hn hheights hshort.not_overruns

/-- Some number is no less than the height of each of some conditions. -/
theorem exists_height_le (cs : List Condition) : ∃ limit, ∀ c ∈ cs, c.height ≤ limit := by
  induction cs with
  | nil => exact ⟨0, by simp⟩
  | cons c cs ih =>
    obtain ⟨limit, hlimit⟩ := ih
    refine ⟨max c.height limit, ?_⟩
    rintro x (_ | ⟨_, hx⟩)
    · exact Nat.le_max_left _ _
    · exact Nat.le_trans (hlimit x hx) (Nat.le_max_right _ _)

/-- The grammar derives no two trees from one text. -/
theorem listingText_unique {n m : Nat} {ts : List Token} {listing other : Listing}
    (hshort : ShortNumbers ts) (h : ListingText ts listing n) (h' : ListingText ts other m) :
    listing = other := by
  obtain ⟨k, hk⟩ := exists_height_le (listing.conditions ++ other.conditions)
  let b : Bounds := ⟨max k (max n m), .start⟩
  have hlimit : b.limit = max k (max n m) := rfl
  have hread : parseListing b ts = .ok listing := by
    refine h.parse (by omega) (fun c hc => ?_) hshort
    have hheight := hk c (List.mem_append_left _ hc)
    omega
  have hread' : parseListing b ts = .ok other := by
    refine h'.parse (by omega) (fun c hc => ?_) hshort
    have hheight := hk c (List.mem_append_right _ hc)
    omega
  rw [hread, Except.ok.injEq] at hread'
  exact hread'

/-- A text whose numbers are short is read as a tree exactly when the grammar derives the tree from
it, with no more levels and no higher conditions than the limit; and it derives no two trees. -/
theorem parse_eq_ok_iff {text : TokenList} (hshort : ShortNumbers text.tokens) (limit : Nat) :
    (∀ listing, parse limit text = .ok listing ↔
      ∃ n, ListingText text.tokens listing n ∧ n ≤ limit ∧
        ∀ c ∈ listing.conditions, c.height ≤ limit) ∧
    ∀ listing other n m, ListingText text.tokens listing n → ListingText text.tokens other m →
      listing = other := by
  refine ⟨fun listing => ⟨fun h => listingText_of_ok h, ?_⟩, ?_⟩
  · rintro ⟨n, htext, hn, hheights⟩
    exact htext.parse hn hheights hshort
  · intro listing other n m h h'
    exact listingText_unique hshort h h'

/-- The tokens of `while (!on()) { repeat (2) { on(); } }`, one in each column. -/
def watchText : TokenList :=
  ⟨([.keyword .whileWord, .symbol .leftParen, .symbol .bang, .word "on", .symbol .leftParen,
      .symbol .rightParen, .symbol .rightParen, .symbol .leftBrace, .keyword .repeatWord,
      .symbol .leftParen, .number "2", .symbol .rightParen, .symbol .leftBrace, .word "on",
      .symbol .leftParen, .symbol .rightParen, .symbol .semicolon, .symbol .rightBrace,
      .symbol .rightBrace] : List Lexeme).zipIdx.map fun (l, i) => ⟨l, ⟨1, i + 1⟩⟩, ⟨1, 20⟩⟩

/-- The tree of these tokens. -/
def watchListing : Listing :=
  ⟨[], [.whileLoop (.not (.call ⟨"on", 0, ⟨1, 4⟩⟩) 1)
    [.repeatLoop 2 [.call ⟨"on", 0, ⟨1, 14⟩⟩] 1] 1]⟩

theorem parse_eq_ok_iff_watch :
    ShortNumbers watchText.tokens ∧ parse 2 watchText = .ok watchListing ∧
      (∃ n, ListingText watchText.tokens watchListing n ∧ n ≤ 2 ∧
        ∀ c ∈ watchListing.conditions, c.height ≤ 2) ∧
      ∀ other m, ListingText watchText.tokens other m → watchListing = other := by
  have hshort : ShortNumbers watchText.tokens := by
    simp [ShortNumbers, watchText, Text.maxDigits]
  have hparse : parse 2 watchText = .ok watchListing := by cbv
  obtain ⟨hiff, hunique⟩ := parse_eq_ok_iff hshort 2
  obtain ⟨n, htext, hn, hheights⟩ := (hiff watchListing).1 hparse
  exact ⟨hshort, hparse, ⟨n, htext, hn, hheights⟩, fun other m => hunique _ other n m htext⟩

end GridRobot.Source
