import GridRobot.Proofs.Source.Completeness
import GridRobot.Proofs.Source.Written
import GridRobot.Source.Compile

/-!
# What compiling comes to

A text compiles to a program or to an error in it, whatever it holds, with one exception: a text that
is cut at a count which is too long has neither, however right the rest of it may be.

## Main definitions

* `CutShort` says that a program text is cut at a count which is too long.

## Main statements

* `ListingCut.overruns`: in a text that is cut the reading meets the count.
* `compile_outcome_iff`: a text has an outcome exactly when it is not cut.
* `compile_longCount`: a right program without an outcome.
-/

namespace GridRobot.Source

variable {b : Bounds}

/-! ### In a text that is cut, the reading meets the count -/

theorem IfCut.head {limit depth : Nat} {ts : List Token} (h : IfCut limit depth ts) :
    ∃ p mid, ts = ⟨.keyword .ifWord, p⟩ :: mid := by
  cases h with
  | thenBlock _ _ _ _ => exact ⟨_, _, rfl⟩
  | elsePart _ _ _ _ _ _ _ => exact ⟨_, _, rfl⟩

theorem StatementCut.head {limit depth : Nat} {ts : List Token} (h : StatementCut limit depth ts) :
    ∃ t mid, ts = t :: mid ∧ StatementStart t.lexeme := by
  cases h with
  | count _ => exact ⟨_, _, rfl, .repeatWord⟩
  | repeatLoop _ _ => exact ⟨_, _, rfl, .repeatWord⟩
  | whileLoop _ _ _ _ => exact ⟨_, _, rfl, .whileWord⟩
  | doWhile _ => exact ⟨_, _, rfl, .doWord⟩
  | ifElse hif =>
    obtain ⟨p, mid, rfl⟩ := hif.head
    exact ⟨_, _, rfl, .ifWord⟩

theorem StatementCut.not_begins {limit depth : Nat} {ts : List Token} {l : Lexeme}
    (h : StatementCut limit depth ts) (hl : ¬ StatementStart l) : ¬ Begins l ts := by
  obtain ⟨t, mid, rfl, hstart⟩ := h.head
  rw [begins_cons]
  rintro rfl
  exact hl hstart

theorem RowCut.not_begins {limit depth : Nat} {ts : List Token} {l : Lexeme}
    (h : RowCut limit depth ts) (hl : ¬ StatementStart l) : ¬ Begins l ts := by
  cases h with
  | here hs => exact hs.not_begins hl
  | later htext _ _ _ => exact htext.not_begins hl

mutual

theorem BlockCut.overruns {depth : Nat} {ts : List Token} (h : BlockCut b.limit depth ts) :
    Overruns (parseBlock b depth ts) := by
  match h with
  | .braces hroom hrow => exact parseBlock_overruns.2 ⟨_, _, rfl, hroom, hrow.overruns⟩
termination_by structural h

theorem RowCut.overruns {depth : Nat} {ts : List Token} (h : RowCut b.limit depth ts) :
    Overruns (parseBody b depth ts) := by
  match h with
  | .here hs => exact parseBody_overruns.2 ⟨hs.not_begins nofun, .inl hs.overruns⟩
  | .later htext hn hlow hrow =>
    have hbrace : ¬ Begins (.symbol .rightBrace) ts := htext.not_begins nofun
    -- a count in the complete statement may be too long as well, and is then met first
    by_cases hfirst : Overruns (parseStatement b depth ts)
    · exact parseBody_overruns.2 ⟨hbrace, .inl hfirst⟩
    · have hread := htext.reads hn hlow (hrow.not_begins nofun) hfirst
      exact parseBody_overruns.2 ⟨hbrace, .inr ⟨_, _, hread, hrow.overruns⟩⟩
termination_by structural h

theorem StatementCut.overruns {depth : Nat} {ts : List Token}
    (h : StatementCut b.limit depth ts) : Overruns (parseStatement b depth ts) := by
  match h with
  | .count hlong =>
    exact parseStatement_overruns.2 (.count (parseCount_long hlong))
  | .repeatLoop hshort hblock =>
    exact parseStatement_overruns.2 (.repeatLoop (parseCount_short hshort) hblock.overruns)
  | .whileLoop hcond hn hheight hblock =>
    exact parseStatement_overruns.2 (.whileLoop (hcond.reads hn hheight) hblock.overruns)
  | .doWhile hblock => exact parseStatement_overruns.2 (.doWhile hblock.overruns)
  | .ifElse hif =>
    obtain ⟨p, mid, rfl, hover⟩ := hif.overruns
    exact parseStatement_overruns.2 (.ifElse hover)
termination_by structural h

theorem IfCut.overruns {depth : Nat} {ts : List Token} (h : IfCut b.limit depth ts) :
    ∃ p mid, ts = ⟨.keyword .ifWord, p⟩ :: mid ∧
      Overruns (parseIf b depth ⟨.keyword .ifWord, p⟩ mid) := by
  match h with
  | .thenBlock hcond hn hheight hblock =>
    have hread := hcond.reads hn hheight
    exact ⟨_, _, rfl, parseIf_overruns.2 ⟨_, _, hread, .inl hblock.overruns⟩⟩
  | @IfCut.elsePart _ _ _ _ _ mid _ _ _ _ hcond hn hheight hbody hm hlow helse =>
    have hread := hcond.reads hn hheight
    by_cases hthen : Overruns (parseBlock b depth mid)
    · exact ⟨_, _, rfl, parseIf_overruns.2 ⟨_, _, hread, .inl hthen⟩⟩
    · have hblock := hbody.reads hm hlow hthen
      exact ⟨_, _, rfl, parseIf_overruns.2 ⟨_, _, hread, .inr ⟨_, _, hblock, helse.overruns⟩⟩⟩
termination_by structural h

theorem ElseCut.overruns {depth : Nat} {ts : List Token} (h : ElseCut b.limit depth ts) :
    Overruns (parseElse b depth ts) := by
  match h with
  | .block hblock => exact parseElse_overruns.2 (.block hblock.overruns)
  | .chain hroom hif =>
    obtain ⟨p, mid, rfl, hover⟩ := hif.overruns
    exact parseElse_overruns.2 (.chain hroom hover)
termination_by structural h

end

theorem ListingCut.not_begins {limit : Nat} {ts : List Token} {l : Lexeme}
    (h : ListingCut limit ts) (hl : ¬ StatementStart l)
    (hdef : ∀ k, DefinitionKeyword k → l ≠ .keyword k) : ¬ Begins l ts := by
  cases h with
  | definition hk _ =>
    rw [begins_cons]
    exact fun heq => hdef _ hk heq.symm
  | afterDefinition htext _ _ _ =>
    obtain ⟨hk, _⟩ := htext
    rw [begins_cons]
    exact fun heq => hdef _ hk heq.symm
  | statement hs => exact hs.not_begins hl
  | afterStatement htext _ _ _ => exact htext.not_begins hl

theorem ListingCut.overruns {ts : List Token} (h : ListingCut b.limit ts) :
    Overruns (parseListing b ts) := by
  induction h with
  | definition hk hblock =>
    refine parseListing_overruns.2 (.definition hk ?_)
    exact parseDefinition_overruns.2 ⟨_, _, _, _, _, rfl, hblock.overruns⟩
  | @afterDefinition n ts mid d htext hn hlow hlater ih =>
    by_cases hfirst : ∃ k p mid', DefinitionKeyword k ∧ ts = ⟨.keyword k, p⟩ :: mid' ∧
        Overruns (parseDefinition b mid')
    · obtain ⟨k, p, mid', hk, rfl, hover⟩ := hfirst
      exact parseListing_overruns.2 (.definition hk hover)
    · obtain ⟨k, p, mid', hk, rfl, hread⟩ := htext.reads hn hlow
        fun k p mid' hk hts hover => hfirst ⟨k, p, mid', hk, hts, hover⟩
      exact parseListing_overruns.2 (.afterDefinition hk hread ih)
  | statement hs =>
    refine parseListing_overruns.2 (.statement ?_ hs.overruns)
    intro k hk
    cases hk <;> exact hs.not_begins nofun
  | @afterStatement n ts mid s htext hn hlow hlater ih =>
    have hother : ∀ k, DefinitionKeyword k → ¬ Begins (.keyword k) ts :=
      fun _ hk => htext.not_begins_definition hk
    have helse : ¬ Begins (.keyword .elseWord) mid :=
      hlater.not_begins nofun (by rintro _ ⟨⟩ ⟨⟩)
    by_cases hfirst : Overruns (parseStatement b 0 ts)
    · exact parseListing_overruns.2 (.statement hother hfirst)
    · have hread := htext.reads (by omega) hlow helse hfirst
      exact parseListing_overruns.2 (.afterStatement hother hread ih)

/-- The reading meets too long a count exactly in a text that is cut. -/
theorem parse_overruns {limit : Nat} {text : TokenList} :
    Overruns (parse limit text) ↔ ListingCut limit text.tokens :=
  ⟨fun hover => listingCut_of_overruns hover, fun hcut => hcut.overruns⟩

/-! ### Outcomes -/

/-- The tokens of a program text are cut at a count which is too long. -/
def CutShort (limit : Int) (source : String) : Prop :=
  ∃ text, tokenize source = .ok text ∧ ListingCut limit.toNat text.tokens

theorem mapError_ne_numberTooLong {α : Type} {x : Except CompileError α} :
    x.mapError Refusal.error ≠ .error .numberTooLong := by
  cases x <;> exact nofun

theorem compile_eq_numberTooLong {limit : Int} (hlimit : 1 ≤ limit) {source : String} :
    compile limit source = .error .numberTooLong ↔ CutShort limit source := by
  have hpositive : ¬ limit ≤ 0 := by omega
  have hparse (text : TokenList) : parseWithin limit text = .error .numberTooLong ↔
      Overruns (parse limit.toNat text) := by
    rw [parseWithin, if_neg hpositive]
    rcases parse limit.toNat text with (e | _) | listing <;> simp [Overruns]
  simp only [compile, bind_eq_error, mapError_ne_numberTooLong, false_or, mapError_eq_ok, hparse,
    and_false, exists_false, or_false, parse_overruns, CutShort]

theorem compile_outcome {limit : Int} (hlimit : 1 ≤ limit) (source : String) :
    compile limit source = .error .numberTooLong ∨
      ∃ outcome : CompileOutcome, compile limit source = outcome.mapError .error := by
  have hpositive : ¬ limit ≤ 0 := by omega
  unfold compile
  rcases tokenize source with e | text
  · exact .inr ⟨.error e, rfl⟩
  · show parseWithin limit text >>= _ = _ ∨
      ∃ outcome : CompileOutcome, parseWithin limit text >>= _ = _
    rw [parseWithin, if_neg hpositive]
    rcases parse limit.toNat text with (e | _) | listing
    · exact .inr ⟨.error e, rfl⟩
    · exact .inl rfl
    · exact .inr ⟨bind listing, rfl⟩

/-- With a limit of at least one level, a program text, or none in place of an empty one, comes to a
program or to one error in the text exactly when it is not cut at a count which is too long; and when
it is cut, that is all that is said of it. -/
theorem compile_outcome_iff {limit : Int} (hlimit : 1 ≤ limit) (source : Option String) :
    ((∃ outcome : CompileOutcome, compile limit (source.getD "") = outcome.mapError .error) ↔
        ¬ CutShort limit (source.getD "")) ∧
      (CutShort limit (source.getD "") →
        compile limit (source.getD "") = .error .numberTooLong) := by
  refine ⟨⟨?_, ?_⟩, (compile_eq_numberTooLong hlimit).2⟩
  · rintro ⟨outcome, houtcome⟩ hcut
    have hrefused := (compile_eq_numberTooLong hlimit).2 hcut
    exact mapError_ne_numberTooLong (houtcome.symm.trans hrefused)
  · intro hwhole
    rcases compile_outcome hlimit (source.getD "") with hrefused | houtcome
    · exact absurd ((compile_eq_numberTooLong hlimit).1 hrefused) hwhole
    · exact houtcome

/-- A text that ends within the block of a loop, and the outcome of which is an error. -/
theorem compile_outcome_iff_unclosed :
    (1 : Int) ≤ 100 ∧ ¬ CutShort 100 "repeat (2) \x7b move(" ∧
      ∃ outcome : CompileOutcome,
        compile 100 "repeat (2) \x7b move(" = outcome.mapError .error := by
  have herror : compile 100 "repeat (2) \x7b move(" =
      .error (.error ⟨.badArgument none, .position ⟨1, 19⟩⟩) := by cbv
  have hiff := (compile_outcome_iff (show (1 : Int) ≤ 100 by decide)
    (some "repeat (2) \x7b move(")).1
  have houtcome : ∃ outcome : CompileOutcome,
      compile 100 "repeat (2) \x7b move(" = outcome.mapError .error :=
    ⟨.error ⟨.badArgument none, .position ⟨1, 19⟩⟩, herror⟩
  exact ⟨by decide, hiff.1 houtcome, houtcome⟩

/-! ### A program without an outcome -/

section LongCount

variable {digits : List Char}

/-- The characters after the count in the text of one step that is repeated. -/
def closing : List Char :=
  [')', ' ', '\x7b', ' ', 'm', 'o', 'v', 'e', '(', ')', ';', ' ', '\x7d']

/-- The text of one step that is repeated, with the digits of the count. -/
def countedMove (digits : List Char) : String :=
  String.ofList (['r', 'e', 'p', 'e', 'a', 't', '('] ++ (digits ++ closing))

example : countedMove ['2'] = "repeat(2) \x7b move(); \x7d" := by decide

theorem tokenizeFrom_token {p q : Position} {c : Char} {rest after : List Char} {l : Lexeme}
    {later : TokenList} (piece : Piece (c :: rest)) (hpiece : readPiece c rest = .ok piece)
    (hlexeme : piece.lexeme = some l) (hplace : p.after piece.taken = q) (hrest : piece.rest = after)
    (hlater : tokenizeFrom q after = .ok later) :
    tokenizeFrom p (c :: rest) = .ok ⟨⟨l, p⟩ :: later.tokens, later.finish⟩ := by
  subst hplace hrest
  rw [tokenizeFrom]
  simp only [hpiece, hlater, hlexeme]
  rfl

/-- A row of digits before another character is one token. -/
theorem tokenizeFrom_number {p : Position} {c : Char} {after : List Char} {later : TokenList}
    (hne : digits ≠ []) (hdigits : ∀ d ∈ digits, Text.isDigit d = true)
    (hc : Text.isDigit c = false)
    (hlater : tokenizeFrom (p.after digits) (c :: after) = .ok later) :
    tokenizeFrom p (digits ++ c :: after) =
      .ok ⟨⟨.number (String.ofList digits), p⟩ :: later.tokens, later.finish⟩ := by
  have hproper : (Lexeme.number (String.ofList digits)).Proper := by
    simpa [Lexeme.Proper, String.toList_ofList] using ⟨hne, hdigits⟩
  have hends : (Lexeme.number (String.ofList digits)).EndsBefore (c :: after) := by
    simpa [Lexeme.EndsBefore] using hc
  have hcut := hproper.cut (p := p) hends
  rw [Lexeme.text, String.toList_ofList, hlater] at hcut
  exact hcut

theorem tokenizeFrom_opening {after : List Char} {later : TokenList}
    (hlater : tokenizeFrom ⟨1, 8⟩ after = .ok later) :
    tokenizeFrom .start ('r' :: 'e' :: 'p' :: 'e' :: 'a' :: 't' :: '(' :: after) =
      .ok ⟨⟨.keyword .repeatWord, .start⟩ :: ⟨.symbol .leftParen, ⟨1, 7⟩⟩ :: later.tokens,
        later.finish⟩ := by
  have hparen : tokenizeFrom ⟨1, 7⟩ ('(' :: after) =
      .ok ⟨⟨.symbol .leftParen, ⟨1, 7⟩⟩ :: later.tokens, later.finish⟩ :=
    tokenizeFrom_token (.one (some (.symbol .leftParen)) '(' after) rfl rfl rfl rfl hlater
  refine tokenizeFrom_token (.span (fun cs => some (wordLexeme cs)) isWordPart 'r'
    ('e' :: 'p' :: 'e' :: 'a' :: 't' :: '(' :: after)) rfl rfl ?_ ?_ hparen
  · rfl
  · rfl

theorem tokenizeFrom_closing (p : Position) :
    ∃ tokens finish, tokenizeFrom p closing =
      .ok ⟨⟨.symbol .rightParen, p⟩ :: tokens, finish⟩ := by
  refine ⟨[⟨.symbol .leftBrace, ⟨p.line, p.column + 2⟩⟩, ⟨.word "move", ⟨p.line, p.column + 4⟩⟩,
    ⟨.symbol .leftParen, ⟨p.line, p.column + 8⟩⟩, ⟨.symbol .rightParen, ⟨p.line, p.column + 9⟩⟩,
    ⟨.symbol .semicolon, ⟨p.line, p.column + 10⟩⟩, ⟨.symbol .rightBrace, ⟨p.line, p.column + 12⟩⟩],
    ⟨p.line, p.column + 13⟩, ?_⟩
  cbv

/-- However large the limit, a text is cut at a count of too many digits. -/
theorem cutShort_countedMove (hlong : Text.maxDigits < digits.length)
    (hdigits : ∀ d ∈ digits, Text.isDigit d = true) (limit : Int) :
    CutShort limit (countedMove digits) := by
  have hne : digits ≠ [] := by
    rintro rfl
    simp at hlong
  obtain ⟨tokens, finish, hclosing⟩ := tokenizeFrom_closing ((Position.mk 1 8).after digits)
  have hnumber := tokenizeFrom_number hne hdigits (by decide) hclosing
  have hsource : tokenize (countedMove digits) =
      tokenizeFrom .start ('r' :: 'e' :: 'p' :: 'e' :: 'a' :: 't' :: '(' :: (digits ++ closing)) := by
    rw [tokenize, countedMove, String.toList_ofList]
    rfl
  refine ⟨_, hsource.trans (tokenizeFrom_opening hnumber), .statement (.count ?_)⟩
  rwa [String.toList_ofList]

/-- The count two, written with so many zeros before it that it has one digit too many. -/
def longTwo : List Char :=
  List.replicate Text.maxDigits '0' ++ ['2']

theorem compile_longCount :
    compile 100 (countedMove longTwo) = .error .numberTooLong ∧
      ¬ ∃ outcome : CompileOutcome,
        compile 100 (countedMove longTwo) = outcome.mapError .error := by
  have hlong : Text.maxDigits < longTwo.length := by simp [longTwo]
  have hdigits : ∀ d ∈ longTwo, Text.isDigit d = true := by
    intro d hd
    rcases List.mem_append.1 hd with hd | hd
    · obtain rfl := List.eq_of_mem_replicate hd
      decide
    · obtain rfl := List.mem_singleton.1 hd
      decide
  have hrefused := (compile_eq_numberTooLong (show (1 : Int) ≤ 100 by decide)).2
    (cutShort_countedMove hlong hdigits 100)
  refine ⟨hrefused, ?_⟩
  rintro ⟨outcome, houtcome⟩
  exact mapError_ne_numberTooLong (houtcome.symm.trans hrefused)

end LongCount

end GridRobot.Source
