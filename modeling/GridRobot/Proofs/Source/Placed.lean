import GridRobot.Proofs.Source.Lexing
import GridRobot.Proofs.Source.Nesting
import GridRobot.Proofs.Source.Relaid
import GridRobot.Proofs.Source.Resolved

/-!
# Where compile errors are

A compile error that has a place in the text is at a place of the text: at a token, at its end, or
where it cannot be cut any further. There is one exception. Where statements stand beside a procedure
`main` and the first of them is not a call, only the line of it is told.

That no other places are told is one instance of how a text is read in another layout: the text is
compared with itself, and each place in it is related to itself alone.

## Main definitions

* `Marked` says that something begins at a place of a text, or that the text ends there or is stuck.
* `Stays` relates each place in a set to itself.
* `StrayStatement` says that statements stand beside `main`, and the first of them is no call.

## Main statements

* `parse_stays`: a tree notes only places of its tokens, and a failure is at one of them.
* `compile_placed`: where an error is, and when only its line is told.
-/

namespace GridRobot.Source

/-! ### Places of a text -/

/-- A token begins at the place, or the text ends there. -/
def TokenList.Marks (text : TokenList) (p : Position) : Prop :=
  (∃ t ∈ text.tokens, t.position = p) ∨ p = text.finish

/-- A token of the text begins at the place, or the text ends there, or nothing can be cut off there:
there stands a comment that is never closed, or a character with which nothing begins. -/
inductive Marked (source : String) : Position → Prop where
  | token {text : TokenList} {p : Position} (htext : tokenize source = .ok text)
      (hp : text.Marks p) : Marked source p
  | stuck {ts : List Token} {cs rest : List Char} {cause : Cause}
      (hsource : source.toList = cs ++ rest) (hwritten : Written [] ts cs rest)
      (hstuck : Stuck rest cause) : Marked source (placeAfter cs)

/-- The procedures have names that they may have, but there are statements beside a procedure
`main`, and the first of these is not a call. -/
structure Listing.Stray (listing : Listing) : Prop where
  noPredicate : ∀ d ∈ listing.definitions, ∀ q : Predicate, q.name ≠ d.name
  namesDiffer : listing.names.Nodup
  main : "main" ∈ listing.names
  first : ∃ s rest, listing.loose = s :: rest ∧ ∀ c, s ≠ .call c

/-- The text is in the grammar, and its statements are beside a procedure `main`, the first of them
no call. -/
def StrayStatement (limit : Int) (source : String) : Prop :=
  ∃ text listing, tokenize source = .ok text ∧ parse limit.toNat text = .ok listing ∧ listing.Stray

/-! ### A text beside itself -/

/-- The places are one, and it is in a set. -/
def Stays (S : Position → Prop) (p p' : Position) : Prop :=
  p = p' ∧ S p

section Stays

variable {S : Position → Prop}

theorem CompileError.Moved.exists_place {e e' : CompileError} (h : e.Moved (Stays S) e') :
    ∃ p, S p ∧ e.place = .position p := by
  cases h with
  | located cause hp => exact ⟨_, hp.2, rfl⟩

theorem LineMoved.exists_place {n n' : Nat} (h : LineMoved (Stays S) n n') :
    ∃ p, S p ∧ n = p.line := by
  cases h with
  | of hp => exact ⟨_, hp.2, rfl⟩

theorem Call.Moved.stays {c c' : Call} (h : c.Moved (Stays S) c') : S c.position := by
  cases h with
  | mk _ _ hp => exact hp.2

/-- A call is told with its place, any other statement with a line only. -/
theorem BodyMoved.exists_place {s s' : Statement} {rest rest' : List Statement}
    (h : BodyMoved (Stays S) (s :: rest) (s' :: rest')) :
    (∃ c, s = .call c ∧ S c.position) ∨
      ((∀ c, s ≠ .call c) ∧ ∃ p, S p ∧ s.place = .line p.line) := by
  have hline {n n' : Nat} (hmoved : LineMoved (Stays S) n n') :
      ∃ p, S p ∧ Place.line n = .line p.line := by
    obtain ⟨p, hp, rfl⟩ := hmoved.exists_place
    exact ⟨p, hp, rfl⟩
  cases h with
  | call hc _ => exact .inl ⟨_, rfl, hc.stays⟩
  | ifElse hl _ _ _ _ => exact .inr ⟨nofun, hline hl⟩
  | whileLoop hl _ _ _ => exact .inr ⟨nofun, hline hl⟩
  | doWhile hl _ _ _ => exact .inr ⟨nofun, hline hl⟩
  | repeatLoop hl _ _ => exact .inr ⟨nofun, hline hl⟩

theorem relaid_stays {ts : List Token} (h : ∀ t ∈ ts, S t.position) : Relaid (Stays S) ts ts := by
  induction ts with
  | nil => exact .nil
  | cons t ts ih =>
    obtain ⟨ht, hts⟩ := List.forall_mem_cons.1 h
    exact .cons t.lexeme ⟨rfl, ht⟩ (ih hts)

/-- A tree notes only places of its tokens, and a failure is at one of them. -/
theorem parse_stays (limit : Nat) (text : TokenList) :
    Agree (Failure.Moved (Stays text.Marks)) (Listing.Moved (Stays text.Marks)) (parse limit text)
      (parse limit text) :=
  parse_agree limit (relaid_stays fun t ht => .inl ⟨t, ht, rfl⟩) ⟨rfl, .inr rfl⟩

end Stays

/-! ### Stages -/

variable {limit : Int} {source : String} {text : TokenList} {listing : Listing} {e : CompileError}

theorem parseWithin_error (h : parseWithin limit text = .error (.error e)) :
    parse limit.toNat text = .error (.error e) := by
  unfold parseWithin at h
  split at h
  · cases h
  · split at h <;> simp_all

theorem parse_error_place (h : parse limit.toNat text = .error (.error e)) :
    ∃ p, text.Marks p ∧ e.place = .position p := by
  have hmoved := (parse_stays limit.toNat text).of_error h
  cases hmoved with
  | error he => exact he.exists_place

/-- A stage of the binding fails when those before it do not. -/
theorem bind_error_cases (h : bind listing = .error e) :
    (checkDefinitions [] listing.definitions : Except CompileError Unit) = .error e ∨
      ((∀ d ∈ listing.definitions, ∀ q : Predicate, q.name ≠ d.name) ∧ listing.names.Nodup ∧
        chooseEntry listing.names listing.loose = .error e) ∨
      ((∃ entry, chooseEntry listing.names listing.loose = .ok entry) ∧
        (bindDefinitions listing.names listing.definitions = .error e ∨
          bindLoose listing.names listing.loose = .error e)) := by
  unfold bind at h
  obtain hcheck | ⟨u, hcheck, h⟩ := bind_eq_error.1 h
  · exact .inl hcheck
  obtain ⟨hall, hnodup⟩ := checkDefinitions_isOk.1 ⟨u, hcheck⟩
  obtain hentry | ⟨entry, hentry, h⟩ := bind_eq_error.1 h
  · exact .inr (.inl ⟨fun d hd => (hall d hd).1, hnodup, hentry⟩)
  obtain hdefined | ⟨_, -, h⟩ := bind_eq_error.1 h
  · exact .inr (.inr ⟨⟨entry, hentry⟩, .inl hdefined⟩)
  obtain himplicit | ⟨_, -, h⟩ := bind_eq_error.1 h
  · exact .inr (.inr ⟨⟨entry, hentry⟩, .inr himplicit⟩)
  · cases h

theorem Listing.Stray.checkDefinitions_ne (h : listing.Stray) :
    checkDefinitions [] listing.definitions ≠ .error e := by
  obtain ⟨u, hok⟩ : ∃ u, checkDefinitions [] listing.definitions = .ok u :=
    checkDefinitions_isOk.2 ⟨fun d hd => ⟨h.noPredicate d hd, List.not_mem_nil⟩, h.namesDiffer⟩
  rw [hok]
  exact nofun

theorem Listing.Stray.chooseEntry_ne (h : listing.Stray) (entry : String) :
    chooseEntry listing.names listing.loose ≠ .ok entry := by
  obtain ⟨s, rest, hloose, -⟩ := h.first
  rw [hloose, chooseEntry_cons, if_pos h.main]
  exact nofun

/-- Binding fails at a place of the tree, unless there is no entry or there are stray statements. -/
theorem bind_error_place {S : Position → Prop} (hlisting : listing.Moved (Stays S) listing)
    (h : bind listing = .error e) (hkind : e.cause.kind ≠ .missingEntryProcedure) :
    (¬ listing.Stray ∧ ∃ p, S p ∧ e.place = .position p) ∨
      (listing.Stray ∧ e.cause = .statementsBesideMain ∧ ∃ p, S p ∧ e.place = .line p.line) := by
  rcases bind_error_cases h with
    hcheck | ⟨hpred, hnodup, hentry⟩ | ⟨⟨entry, hentry⟩, hdefined | himplicit⟩
  · have hmoved := (checkDefinitions_agree hlisting.definitions []).of_error hcheck
    exact .inl ⟨fun hstray => hstray.checkDefinitions_ne hcheck, hmoved.exists_place⟩
  · have hbody := hlisting.loose
    cases hloose : listing.loose with
    | nil =>
      rw [hloose, chooseEntry_nil] at hentry
      split_ifs at hentry
      cases hentry
      exact absurd rfl hkind
    | cons s rest =>
      rw [hloose] at hbody
      rw [hloose, chooseEntry_cons] at hentry
      split_ifs at hentry with hmain
      cases hentry
      rcases hbody.exists_place with ⟨c, rfl, hc⟩ | ⟨hcall, hplace⟩
      · refine .inl ⟨fun hstray => ?_, c.position, hc, rfl⟩
        obtain ⟨s, rest', hfirst, hcall⟩ := hstray.first
        rw [hloose, List.cons.injEq] at hfirst
        exact hcall c hfirst.1.symm
      · exact .inr ⟨⟨hpred, hnodup, hmain, s, rest, hloose, hcall⟩, rfl, hplace⟩
  · have hmoved := (bindDefinitions_agree _ (linesAgree_const _) hlisting.definitions).of_error hdefined
    exact .inl ⟨fun hstray => hstray.chooseEntry_ne entry hentry, hmoved.exists_place⟩
  · have hmoved := (bindLoose_agree _ (linesAgree_const _) hlisting.loose).of_error himplicit
    exact .inl ⟨fun hstray => hstray.chooseEntry_ne entry hentry, hmoved.exists_place⟩

/-! ### Compiling -/

/-- A stage of the compilation fails when those before it do not. -/
theorem compile_error_cases (h : compile limit source = .error (.error e)) :
    tokenize source = .error e ∨ ∃ text, tokenize source = .ok text ∧
      (parse limit.toNat text = .error (.error e) ∨
        ∃ listing, parse limit.toNat text = .ok listing ∧ bind listing = .error e) := by
  unfold compile at h
  obtain htokens | ⟨text, htokens, h⟩ := bind_eq_error.1 h
  · obtain ⟨e', he', hsame⟩ := mapError_eq_error.1 htokens
    cases hsame
    exact .inl he'
  refine .inr ⟨text, mapError_eq_ok.1 htokens, ?_⟩
  obtain hparse | ⟨listing, hparse, h⟩ := bind_eq_error.1 h
  · exact .inl (parseWithin_error hparse)
  · obtain ⟨e', he', hsame⟩ := mapError_eq_error.1 h
    cases hsame
    exact .inr ⟨listing, parseWithin_ok hparse, he'⟩

theorem marked_of_tokenize_error (h : tokenize source = .error e) :
    ∃ p, Marked source p ∧ e.place = .position p := by
  obtain ⟨ts, cs, rest, cause, hsource, hwritten, hstuck, -, rfl⟩ :=
    ((tokenize_written source).2 e).1 h
  exact ⟨_, .stuck hsource hwritten hstuck, rfl⟩

theorem StrayStatement.stray (h : StrayStatement limit source) (htext : tokenize source = .ok text)
    (hparse : parse limit.toNat text = .ok listing) : listing.Stray := by
  obtain ⟨text', listing', htext', hparse', hstray⟩ := h
  rw [htext] at htext'
  cases htext'
  rw [hparse] at hparse'
  cases hparse'
  exact hstray

theorem not_strayStatement_of_tokenize (h : tokenize source = .error e) :
    ¬ StrayStatement limit source := by
  rintro ⟨text, _, htext, -⟩
  rw [htext] at h
  cases h

theorem not_strayStatement_of_parse {f : Failure} (htext : tokenize source = .ok text)
    (h : parse limit.toNat text = .error f) : ¬ StrayStatement limit source := by
  rintro ⟨text', listing, htext', hparse, -⟩
  rw [htext] at htext'
  cases htext'
  rw [hparse] at h
  cases h

/-- An error of a text is at a place of it, or at the line of stray statements. -/
theorem compile_error_place (h : compile limit source = .error (.error e))
    (hkind : e.cause.kind ≠ .missingEntryProcedure) :
    (¬ StrayStatement limit source ∧ ∃ p, Marked source p ∧ e.place = .position p) ∨
      (StrayStatement limit source ∧ e.cause = .statementsBesideMain ∧
        ∃ p, Marked source p ∧ e.place = .line p.line) := by
  rcases compile_error_cases h with htext | ⟨text, htext, hparse | ⟨listing, hparse, hbind⟩⟩
  · exact .inl ⟨not_strayStatement_of_tokenize htext, marked_of_tokenize_error htext⟩
  · obtain ⟨p, hp, hplace⟩ := parse_error_place hparse
    exact .inl ⟨not_strayStatement_of_parse htext hparse, p, .token htext hp, hplace⟩
  · have hlisting := (parse_stays limit.toNat text).of_ok hparse
    rcases bind_error_place hlisting hbind hkind with
      ⟨hfree, p, hp, hplace⟩ | ⟨hstray, hcause, p, hp, hplace⟩
    · exact .inl ⟨fun hstray => hfree (hstray.stray htext hparse), p, .token htext hp, hplace⟩
    · exact .inr ⟨⟨text, listing, htext, hparse, hstray⟩, hcause, p, .token htext hp, hplace⟩

/-- An error of a text that is compiled has a place in the text, unless there is no entry: it is at a
token, at the end of the text, or where nothing can be cut off. It is told with the line and the
column exactly if there are no stray statements; of the first of these only the line is told. -/
theorem compile_placed (h : compile limit source = .error (.error e))
    (hkind : e.cause.kind ≠ .missingEntryProcedure) :
    ((∃ p, Marked source p ∧ e.place = .position p) ↔ ¬ StrayStatement limit source) ∧
      (StrayStatement limit source →
        e.cause = .statementsBesideMain ∧ ∃ p, Marked source p ∧ e.place = .line p.line) := by
  rcases compile_error_place h hkind with ⟨hfree, hplaced⟩ | ⟨hstray, hcause, p, hp, hplace⟩
  · exact ⟨iff_of_true hplaced hfree, fun hstray => absurd hstray hfree⟩
  · refine ⟨iff_of_false ?_ (not_not.2 hstray), fun _ => ⟨hcause, p, hp, hplace⟩⟩
    rintro ⟨q, -, hposition⟩
    rw [hplace] at hposition
    cases hposition

/-- A text that ends within an argument list. -/
theorem compile_placed_cutOff :
    ∃ e, compile 100 "move(" = .error (.error e) ∧ e.cause.kind ≠ .missingEntryProcedure ∧
      e.place = .position ⟨1, 6⟩ ∧ ¬ StrayStatement 100 "move(" := by
  have h : compile 100 "move(" = .error (.error ⟨.badArgument none, .position ⟨1, 6⟩⟩) := by cbv
  obtain ⟨hplaced, -⟩ := compile_placed h (by decide)
  have htext : tokenize "move(" =
      .ok ⟨[⟨.word "move", ⟨1, 1⟩⟩, ⟨.symbol .leftParen, ⟨1, 5⟩⟩], ⟨1, 6⟩⟩ := by cbv
  exact ⟨_, h, by decide, rfl, hplaced.1 ⟨_, .token htext (.inr rfl), rfl⟩⟩

/-- A loop stands beside a procedure `main`: no column is told. -/
theorem compile_strayLoop :
    ∃ e, compile 100 "repeat (2) \x7b \x7d void main() \x7b \x7d" = .error (.error e) ∧
      e.cause.kind = .syntaxError ∧ (∀ p, e.place ≠ .position p) ∧
      e.message = "SyntaxError at line 1, column None: " ++
        "statements outside a procedure cannot be combined with main()" := by
  have h : compile 100 "repeat (2) \x7b \x7d void main() \x7b \x7d" =
      .error (.error ⟨.statementsBesideMain, .line 1⟩) := by
    have hlisting : ((tokenize "repeat (2) \x7b \x7d void main() \x7b \x7d").mapError Refusal.error >>=
        parseWithin 100) = .ok ⟨[⟨"main", [], ⟨1, 21⟩⟩], [.repeatLoop 2 [] 1]⟩ := by cbv
    rw [compile_of_listing hlisting]
    rfl
  refine ⟨_, h, by decide, ?_, by decide⟩
  rintro p ⟨⟩

end GridRobot.Source
