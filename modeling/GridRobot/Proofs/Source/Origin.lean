import GridRobot.Proofs.Source.Nesting
import GridRobot.Proofs.Source.Relaid
import GridRobot.Proofs.Source.Resolved
import GridRobot.Proofs.Source.Soundness

/-!
# From which tokens a program comes

A program keeps only the line of each of its statements. To say from which token a statement comes,
the tokens of the text are numbered: each is moved to the line of its own number. The text is then
read as the same tree with other places, and compiled to the same program with other lines; and the
line of a statement of that program is the number of a token.

## Main definitions

* `TokenList.numbered` is a text in which each token stands at its number.
* `TokenList.lineOf` is the line of the text on which the token of a number stands.
* `Listing.calls` lists the calls of a text that are statements.
* `Call.NamedAt` says that a call was read from a token on.

## Main statements

* `compile_numbered`: the program of a text is that of its numbered tokens, with the lines of these.
* `Listing.Denotes.exists_call`: each action and each call of a program comes from a call in the text.
* `ListingText.readIn`, `Call.ReadIn.namedAt`: each of these calls was read from a token that holds
  its name.
-/

namespace GridRobot.Source

/-! ### Numbered tokens -/

namespace TokenList

/-- The place at which the token of a number stands; after the last token, the end of the text. -/
def placeOf (text : TokenList) (i : Nat) : Position :=
  (text.tokens[i]?.map Token.position).getD text.finish

/-- The line on which the token of a number stands. -/
def lineOf (text : TokenList) (i : Int) : Int :=
  (text.placeOf i.toNat).line

/-- The text with each token at the line of its number. -/
def numbered (text : TokenList) : TokenList :=
  ⟨text.tokens.mapIdx fun i t => ⟨t.lexeme, ⟨i, 1⟩⟩, ⟨text.tokens.length, 1⟩⟩

/-- The second place is the number of the first. -/
def Numbers (text : TokenList) (p p' : Position) : Prop :=
  p = text.placeOf p'.line

variable {text : TokenList} {i : Nat} {t : Token}

theorem placeOf_token (h : text.tokens[i]? = some t) : text.placeOf i = t.position := by
  rw [placeOf, h, Option.map_some, Option.getD_some]

theorem lineOf_token (h : text.tokens[i]? = some t) : text.lineOf i = t.position.line := by
  rw [lineOf, Int.toNat_natCast, placeOf_token h]

theorem relaid_numbered_drop (ts : List Token) (n : Nat) (h : ts = text.tokens.drop n) :
    Relaid text.Numbers ts (ts.mapIdx fun i t => ⟨t.lexeme, ⟨n + i, 1⟩⟩) := by
  induction ts generalizing n with
  | nil => exact .nil
  | cons t ts ih =>
    have hrest : ts = text.tokens.drop (n + 1) := by
      rw [← List.drop_drop, ← h, List.drop_one, List.tail_cons]
    have hfirst : text.tokens[n]? = some t := by
      rw [← List.head?_drop, ← h, List.head?_cons]
    rw [List.mapIdx_cons]
    refine .cons t.lexeme (placeOf_token hfirst).symm ?_
    have hlater := ih (n + 1) hrest
    simpa only [Nat.add_assoc, Nat.add_comm 1] using hlater

theorem relaid_numbered (text : TokenList) :
    Relaid text.Numbers text.tokens text.numbered.tokens := by
  have h := relaid_numbered_drop text.tokens 0 List.drop_zero.symm
  simp only [Nat.zero_add] at h
  exact h

theorem numbers_finish (text : TokenList) : text.Numbers text.finish text.numbered.finish := by
  rw [Numbers, placeOf, numbered, List.getElem?_eq_none (Nat.le_refl _)]
  rfl

theorem linesAgree_numbers (text : TokenList) : LinesAgree text.Numbers id text.lineOf := by
  rintro p p' rfl
  rw [lineOf, Int.toNat_natCast, id]

end TokenList

variable {limit : Int} {source : String} {text : TokenList} {p : Program}

/-- A text is compiled as its numbered tokens are, but for the lines: these are the lines on which
the tokens stand. -/
theorem compile_numbered (h : compile limit source = .ok p) :
    ∃ text listing q, tokenize source = .ok text ∧
      parse limit.toNat text.numbered = .ok listing ∧ bind listing = .ok q ∧
      p = q.relined text.lineOf := by
  simp only [compile, bind_eq_ok, mapError_eq_ok] at h
  obtain ⟨text, htext, listing₀, hparse₀, hbind₀⟩ := h
  have hparse := parse_agree limit.toNat text.relaid_numbered text.numbers_finish
  rw [parseWithin_ok hparse₀] at hparse
  generalize hlisting : parse limit.toNat text.numbered = x at hparse
  cases hparse with
  | @ok _ listing hmoved =>
    have hbind := bind_agree text.linesAgree_numbers hmoved
    rw [hbind₀] at hbind
    generalize hq : bind listing = y at hbind
    cases hbind with
    | @ok _ q hsame =>
      rw [Program.relined_id] at hsame
      exact ⟨text, listing, q, htext, hlisting, hq, hsame⟩

/-! ### Calls of a text -/

/-- The calls that are statements of a text, at any depth. -/
def Listing.calls (text : Listing) : List Call :=
  text.definitions.flatMap (fun d => bodyCalls d.body) ++ bodyCalls text.loose

theorem bodyCalls_append (body others : List Statement) :
    bodyCalls (body ++ others) = bodyCalls body ++ bodyCalls others := by
  induction body with
  | nil => rfl
  | cons s rest ih => rw [List.cons_append, bodyCalls, ih, bodyCalls, List.append_assoc]

theorem bodyCalls_singleton (s : Statement) : bodyCalls [s] = s.calls := by
  rw [bodyCalls, bodyCalls, List.append_nil]

/-- Each action and each call of a program, at any depth, is meant by a call in the text. -/
theorem Listing.Denotes.exists_call {listing : Listing} (h : listing.Denotes p) {q : Procedure}
    (hq : q ∈ p.procedures) {x : GridRobot.Statement} (hx : x ∈ bodyParts q.body)
    (hplain : x.nesting = 0) :
    ∃ c ∈ listing.calls, Statement.Denotes listing.names (.call c) x := by
  obtain ⟨defined, implicit, htable, hdefined, hloose⟩ := h.table
  rw [htable, List.mem_append] at hq
  simp only [Listing.calls, List.mem_append, List.mem_flatMap]
  rcases hq with hq | hq
  · obtain ⟨d, hd, hmeaning⟩ := exists_of_mem_forall₂ hdefined hq
    obtain ⟨c, hc, hdenotes⟩ := hmeaning.body.exists_call x hx hplain
    exact ⟨c, .inl ⟨d, hd, hc⟩, hdenotes⟩
  · generalize hstatements : listing.loose = loose at hloose
    cases hloose with
    | none => cases hq
    | main hbody =>
      obtain rfl := List.mem_singleton.1 hq
      obtain ⟨c, hc, hdenotes⟩ := hbody.exists_call x hx hplain
      exact ⟨c, .inr hc, hdenotes⟩

/-! ### Tokens of calls -/

/-- The call was read from some place of a row of tokens on. -/
def Call.ReadIn (ts : List Token) (c : Call) : Prop :=
  ∃ mid rest, mid <:+ ts ∧ CallText mid c rest

theorem Call.ReadIn.of_suffix {ts mid : List Token} {c : Call} (h : c.ReadIn mid) (hmid : mid <:+ ts) :
    c.ReadIn ts := by
  obtain ⟨start, rest, hstart, htext⟩ := h
  exact ⟨start, rest, hstart.trans hmid, htext⟩

mutual

theorem BlockText.readIn {ts rest : List Token} {body : List Statement} {n : Nat}
    (h : BlockText ts body n rest) : ∀ c ∈ bodyCalls body, c.ReadIn ts := by
  match h with
  | .braces hrow => exact fun c hc => (hrow.readIn c hc).of_suffix (List.suffix_cons _ _)
termination_by structural h

theorem RowText.readIn {ts rest : List Token} {body : List Statement} {n : Nat}
    (h : RowText ts body n rest) : ∀ c ∈ bodyCalls body, c.ReadIn ts := by
  match h with
  | .nil => exact nofun
  | .cons hfirst hothers =>
    intro c hc
    rw [bodyCalls_append, List.mem_append] at hc
    rcases hc with hc | hc
    · exact hfirst.readIn c hc
    · exact (hothers.readIn c hc).of_suffix hfirst.suffix
termination_by structural h

theorem StatementText.readIn {ts rest : List Token} {s : Option Statement} {n : Nat}
    (h : StatementText ts s n rest) : ∀ c ∈ bodyCalls s.toList, c.ReadIn ts := by
  match h with
  | .empty => exact nofun
  | .call hcall =>
    intro c hc
    rw [Option.toList_some, bodyCalls_singleton, Statement.calls, List.mem_singleton] at hc
    subst hc
    exact ⟨_, _, List.suffix_rfl, hcall⟩
  | .ifElse hif =>
    intro c hc
    rw [Option.toList_some, bodyCalls_singleton] at hc
    exact hif.readIn c hc
  | .whileLoop hcond hblock =>
    intro c hc
    rw [Option.toList_some, bodyCalls_singleton, Statement.calls] at hc
    exact (hblock.readIn c hc).of_suffix (suffix_cons_of_suffix hcond.suffix)
  | .doWhile hblock _ =>
    intro c hc
    rw [Option.toList_some, bodyCalls_singleton, Statement.calls] at hc
    exact (hblock.readIn c hc).of_suffix (List.suffix_cons _ _)
  | .repeatLoop hblock =>
    intro c hc
    rw [Option.toList_some, bodyCalls_singleton, Statement.calls] at hc
    exact (hblock.readIn c hc).of_suffix ⟨[_, _, _, _], rfl⟩
termination_by structural h

theorem IfText.readIn {ts rest : List Token} {s : Statement} {n : Nat} (h : IfText ts s n rest) :
    ∀ c ∈ s.calls, c.ReadIn ts := by
  match h with
  | .branches hcond hblock helse =>
    intro c hc
    rw [Statement.calls, List.mem_append] at hc
    rcases hc with hc | hc
    · exact (hblock.readIn c hc).of_suffix (suffix_cons_of_suffix hcond.suffix)
    · have hafter := hblock.suffix.trans hcond.suffix
      exact (helse.readIn c hc).of_suffix (suffix_cons_of_suffix hafter)
termination_by structural h

theorem ElseText.readIn {ts rest : List Token} {body : List Statement} {n : Nat}
    (h : ElseText ts body n rest) : ∀ c ∈ bodyCalls body, c.ReadIn ts := by
  match h with
  | .nothing => exact nofun
  | .block hblock => exact fun c hc => (hblock.readIn c hc).of_suffix (List.suffix_cons _ _)
  | .chain hif =>
    intro c hc
    rw [bodyCalls_singleton] at hc
    exact (hif.readIn c hc).of_suffix (List.suffix_cons _ _)
termination_by structural h

end

theorem ListingText.readIn {ts : List Token} {listing : Listing} {n : Nat}
    (h : ListingText ts listing n) : ∀ c ∈ listing.calls, c.ReadIn ts := by
  simp only [Listing.calls, List.mem_append, List.mem_flatMap]
  induction h with
  | nil => simp [bodyCalls]
  | definition hfirst _ ih =>
    rintro c (⟨d, hd, hc⟩ | hc)
    · rcases List.mem_cons.1 hd with rfl | hd
      · obtain ⟨hk, hblock⟩ := hfirst
        exact (hblock.readIn c hc).of_suffix ⟨[_, _, _, _], rfl⟩
      · exact (ih c (.inl ⟨d, hd, hc⟩)).of_suffix hfirst.suffix
    · exact (ih c (.inr hc)).of_suffix hfirst.suffix
  | statement hfirst _ ih =>
    rintro c (hdefined | hc)
    · exact (ih c (.inl hdefined)).of_suffix hfirst.suffix
    · rw [bodyCalls_append, List.mem_append] at hc
      rcases hc with hc | hc
      · exact hfirst.readIn c hc
      · exact (ih c (.inr hc)).of_suffix hfirst.suffix

/-- The token of a number holds the name of a call, and in the numbered text the call was read from
that token on. -/
structure Call.NamedAt (text : TokenList) (i : Nat) (t : Token) (c : Call) : Prop where
  token : text.tokens[i]? = some t
  lexeme : t.lexeme = .word c.name
  number : c.position.line = i
  read : ∃ rest, CallText (text.numbered.tokens.drop i) c rest

theorem Call.ReadIn.namedAt {c : Call} (h : c.ReadIn text.numbered.tokens) :
    ∃ i t, c.NamedAt text i t := by
  obtain ⟨mid, rest, hmid, htext⟩ := h
  obtain ⟨i, rfl⟩ : ∃ i, mid = text.numbered.tokens.drop i := ⟨_, List.suffix_iff_eq_drop.1 hmid⟩
  have hread := htext
  generalize hstart : text.numbered.tokens.drop i = mid at htext
  obtain ⟨hargs⟩ := htext
  have hhead := congrArg List.head? hstart
  rw [List.head?_drop, List.head?_cons, TokenList.numbered, List.getElem?_mapIdx,
    Option.map_eq_some_iff] at hhead
  obtain ⟨t, ht, hsame⟩ := hhead
  rw [Token.mk.injEq] at hsame
  obtain ⟨hlexeme, rfl⟩ := hsame
  exact ⟨i, t, ht, hlexeme, rfl, rest, hread⟩

end GridRobot.Source
