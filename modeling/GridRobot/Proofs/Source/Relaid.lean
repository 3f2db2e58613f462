import Mathlib
import GridRobot.Proofs.Program.Relined
import GridRobot.Proofs.Source.Layout
import GridRobot.Source.Compile

/-!
# Compiling a text in another layout

A program keeps the lines of its text, and a compile error its place. That is all that the layout of
a text makes of a program: texts of the same lexemes are compiled to programs that differ only in
lines, or are refused for the same cause.

The lines themselves are those of the places. If on the lines of related places two functions have
the same value, then they have it on the lines of the two programs: with each line replaced by its
value the programs are the same. A constant function forgets the lines, and other functions tell
from which places they come.

## Main definitions

* `Program.unlined` is a program without its lines.
* `LinesAgree` says that two functions have the same values on the lines of related places.

## Main statements

* `bindBody_agree`, `bind_agree`: trees that differ only in places are bound alike.
* `compile_relaid`: texts of the same lexemes are compiled alike.
-/

namespace GridRobot

/-! ### Programs without lines -/

/-- The condition with no line noted. -/
def Condition.unlined : Condition → Condition
  | .predicate p _ => .predicate p 0
  | .not c _ => .not c.unlined 0
  | .and l r _ => .and l.unlined r.unlined 0
  | .or l r _ => .or l.unlined r.unlined 0

mutual

/-- The statement with no line noted. -/
def Statement.unlined : Statement → Statement
  | .action a _ => .action a 0
  | .call name _ => .call name 0
  | .ifElse c t e _ => .ifElse c.unlined (unlinedBody t) (unlinedBody e) 0
  | .whileLoop c body _ => .whileLoop c.unlined (unlinedBody body) 0
  | .doWhile body c _ => .doWhile (unlinedBody body) c.unlined 0
  | .repeatLoop n body _ => .repeatLoop n (unlinedBody body) 0

/-- The row of statements with no line noted. -/
def unlinedBody : List Statement → List Statement
  | [] => []
  | s :: rest => s.unlined :: unlinedBody rest

end

/-- The procedure with no line noted. -/
def Procedure.unlined (q : Procedure) : Procedure :=
  ⟨q.name, unlinedBody q.body, 0⟩

/-- The program with no line noted: the same table in the same order, and the same entry. -/
def Program.unlined (p : Program) : Program :=
  ⟨p.procedures.map Procedure.unlined, p.entry⟩

theorem Condition.relined_const (c : Condition) : c.relined (fun _ => 0) = c.unlined := by
  induction c with
  | predicate p line => rfl
  | not c line ih => rw [relined, unlined, ih]
  | and l r line ihl ihr => rw [relined, unlined, ihl, ihr]
  | or l r line ihl ihr => rw [relined, unlined, ihl, ihr]

mutual

theorem Statement.relined_const (s : Statement) : s.relined (fun _ => 0) = s.unlined := by
  cases s with
  | action a line => rfl
  | call name line => rfl
  | ifElse c t e line =>
    rw [Statement.relined, Statement.unlined, c.relined_const, relinedBody_const t,
      relinedBody_const e]
  | whileLoop c body line =>
    rw [Statement.relined, Statement.unlined, c.relined_const, relinedBody_const body]
  | doWhile body c line =>
    rw [Statement.relined, Statement.unlined, c.relined_const, relinedBody_const body]
  | repeatLoop n body line => rw [Statement.relined, Statement.unlined, relinedBody_const body]

theorem relinedBody_const (body : List Statement) :
    relinedBody (fun _ => 0) body = unlinedBody body := by
  cases body with
  | nil => rfl
  | cons s rest => rw [relinedBody, unlinedBody, s.relined_const, relinedBody_const rest]

end

/-- A program whose lines are all the same has none noted. -/
theorem Program.relined_const (p : Program) : p.relined (fun _ => 0) = p.unlined := by
  have hproc : Procedure.relined (fun _ => 0) = Procedure.unlined := by
    funext q
    rw [Procedure.relined, Procedure.unlined, relinedBody_const]
  rw [relined, unlined, hproc]

namespace Source

/-! ### Binding -/

/-- The errors have the same cause. -/
def CompileError.SameCause (e e' : CompileError) : Prop :=
  e.cause = e'.cause

/-- Two functions have the same values on the lines of related places. -/
def LinesAgree (R : Position → Position → Prop) (f g : Int → Int) : Prop :=
  ∀ p p', R p p' → f p.line = g p'.line

variable {R : Position → Position → Prop} {f g : Int → Int}

theorem linesAgree_const (R : Position → Position → Prop) :
    LinesAgree R (fun _ => 0) (fun _ => 0) := fun _ _ _ => rfl

theorem LineMoved.agree (hfg : LinesAgree R f g) {n n' : Nat} (h : LineMoved R n n') :
    f n = g n' := by
  obtain ⟨hp⟩ := h
  exact hfg _ _ hp

theorem BodyMoved.line {s s' : Statement} {rest rest' : List Statement}
    (h : BodyMoved R (s :: rest) (s' :: rest')) : LineMoved R s.line s'.line := by
  cases h with
  | call hc _ =>
    obtain ⟨name, arguments, hp⟩ := hc
    exact .of hp
  | ifElse hline _ _ _ _ => exact hline
  | whileLoop hline _ _ _ => exact hline
  | doWhile hline _ _ _ => exact hline
  | repeatLoop hline _ _ => exact hline

theorem checkArguments_agree {c c' : Call} (hc : c.Moved R c') :
    Agree (CompileError.Moved R) (fun _ _ => True) (checkArguments c) (checkArguments c') := by
  cases hc with
  | mk name arguments hp =>
    unfold checkArguments
    dsimp only
    split
    · exact .ok trivial
    · exact .error (.located _ hp)

variable (names : List String)

theorem checkDefinitions_agree {ds ds' : List Definition}
    (h : List.Forall₂ (Definition.Moved R) ds ds') (seen : List String) :
    Agree (CompileError.Moved R) (fun _ _ => True) (checkDefinitions seen ds)
      (checkDefinitions seen ds') := by
  induction h generalizing seen with
  | nil => exact .ok trivial
  | cons hd _ ih =>
    rw [checkDefinitions, checkDefinitions, hd.name]
    split
    · exact .error (.located _ hd.position)
    · split
      · exact .error (.located _ hd.position)
      · exact ih _

theorem chooseEntry_agree {loose loose' : List Statement} (h : BodyMoved R loose loose') :
    Agree CompileError.SameCause Eq (chooseEntry names loose) (chooseEntry names loose') := by
  rcases loose with _ | ⟨s, rest⟩ <;> rcases loose' with _ | ⟨s', rest'⟩
  · simp only [chooseEntry]
    split
    · exact .ok rfl
    · exact .error rfl
  · cases h
  · cases h
  · simp only [chooseEntry]
    split
    · exact .error rfl
    · exact .ok rfl

theorem definedNames_eq {ds ds' : List Definition} (h : List.Forall₂ (Definition.Moved R) ds ds') :
    ds.map (·.name) = ds'.map (·.name) := by
  induction h with
  | nil => rfl
  | cons hd _ ih => rw [List.map_cons, List.map_cons, hd.name, ih]

theorem bindBody_cons_agree {s s' : Statement} {rest rest' : List Statement}
    (hs : Agree (CompileError.Moved R) (fun x x' => x.relined f = x'.relined g)
      (bindStatement names s) (bindStatement names s'))
    (hrest : Agree (CompileError.Moved R) (fun body body' => relinedBody f body = relinedBody g body')
      (bindBody names rest) (bindBody names rest')) :
    Agree (CompileError.Moved R) (fun body body' => relinedBody f body = relinedBody g body')
      (bindBody names (s :: rest)) (bindBody names (s' :: rest')) := by
  rw [bindBody, bindBody]
  refine hs.bind fun x x' hx => hrest.bind fun others others' hothers => .ok ?_
  rw [relinedBody, relinedBody, hx, hothers]

/-- The tables of procedures differ at most in lines, and these are lines of related places. -/
def SameTable (f g : Int → Int) (table table' : List Procedure) : Prop :=
  table.map (Procedure.relined f) = table'.map (Procedure.relined g)

section

variable (hfg : LinesAgree R f g)

include hfg

theorem bindCall_agree {c c' : Call} (hc : c.Moved R c') :
    Agree (CompileError.Moved R) (fun s s' => s.relined f = s'.relined g) (bindCall names c)
      (bindCall names c') := by
  have harguments := checkArguments_agree hc
  cases hc with
  | mk name arguments hp =>
    have hline := hfg _ _ hp
    unfold bindCall
    dsimp only
    split
    · refine harguments.bind fun _ _ _ => .ok ?_
      simp only [GridRobot.Statement.relined, hline]
    · split
      · refine harguments.bind fun _ _ _ => .ok ?_
        simp only [GridRobot.Statement.relined, hline]
      · split
        · exact .error (.located _ hp)
        · exact .error (.located _ hp)

theorem bindPredicate_agree {c c' : Call} (hc : c.Moved R c') :
    Agree (CompileError.Moved R) (fun d d' => d.relined f = d'.relined g) (bindPredicate names c)
      (bindPredicate names c') := by
  have harguments := checkArguments_agree hc
  cases hc with
  | mk name arguments hp =>
    have hline := hfg _ _ hp
    unfold bindPredicate
    dsimp only
    split
    · refine harguments.bind fun _ _ _ => .ok ?_
      simp only [GridRobot.Condition.relined, hline]
    · split
      · exact .error (.located _ hp)
      · exact .error (.located _ hp)

theorem bindCondition_agree {c c' : Condition} (hc : c.Moved R c') :
    Agree (CompileError.Moved R) (fun d d' => d.relined f = d'.relined g) (bindCondition names c)
      (bindCondition names c') := by
  induction hc with
  | call hc => exact bindPredicate_agree names hfg hc
  | not hline _ ih =>
    refine ih.bind fun d d' hd => ?_
    exact .ok (by simp only [GridRobot.Condition.relined, hd, hline.agree hfg])
  | @binary op _ _ _ _ _ _ hline _ _ ihl ihr =>
    refine ihl.bind fun l l' hl => ihr.bind fun r r' hr => ?_
    cases op with
    | both => exact .ok (by simp only [GridRobot.Condition.relined, hl, hr, hline.agree hfg])
    | either => exact .ok (by simp only [GridRobot.Condition.relined, hl, hr, hline.agree hfg])

/-- Rows of statements that differ only in places are bound alike. -/
theorem bindBody_agree {body body' : List Statement} (h : BodyMoved R body body') :
    Agree (CompileError.Moved R) (fun body body' => relinedBody f body = relinedBody g body')
      (bindBody names body) (bindBody names body') := by
  induction h with
  | nil => exact .ok rfl
  | call hc _ ih => exact bindBody_cons_agree names (bindCall_agree names hfg hc) ih
  | ifElse hline hc _ _ _ iht ihe ih =>
    refine bindBody_cons_agree names ?_ ih
    rw [bindStatement, bindStatement]
    refine (bindCondition_agree names hfg hc).bind fun d d' hd => ?_
    refine iht.bind fun t t' ht => ihe.bind fun e e' he => .ok ?_
    rw [GridRobot.Statement.relined, GridRobot.Statement.relined, hd, ht, he, hline.agree hfg]
  | whileLoop hline hc _ _ ihbody ih =>
    refine bindBody_cons_agree names ?_ ih
    rw [bindStatement, bindStatement]
    refine (bindCondition_agree names hfg hc).bind fun d d' hd => ihbody.bind fun b b' hb => .ok ?_
    rw [GridRobot.Statement.relined, GridRobot.Statement.relined, hd, hb, hline.agree hfg]
  | doWhile hline _ hc _ ihbody ih =>
    refine bindBody_cons_agree names ?_ ih
    rw [bindStatement, bindStatement]
    refine ihbody.bind fun b b' hb => (bindCondition_agree names hfg hc).bind fun d d' hd => .ok ?_
    rw [GridRobot.Statement.relined, GridRobot.Statement.relined, hd, hb, hline.agree hfg]
  | repeatLoop hline _ _ ihbody ih =>
    refine bindBody_cons_agree names ?_ ih
    rw [bindStatement, bindStatement]
    refine ihbody.bind fun b b' hb => .ok ?_
    rw [GridRobot.Statement.relined, GridRobot.Statement.relined, hb, hline.agree hfg]

theorem bindDefinitions_agree {ds ds' : List Definition}
    (h : List.Forall₂ (Definition.Moved R) ds ds') :
    Agree (CompileError.Moved R) (SameTable f g) (bindDefinitions names ds)
      (bindDefinitions names ds') := by
  induction h with
  | nil => exact .ok rfl
  | cons hd _ ih =>
    refine (bindBody_agree names hfg hd.body).bind fun body body' hbody => ?_
    refine ih.bind fun others others' hothers => .ok ?_
    have hline := hfg _ _ hd.position
    simp only [SameTable, List.map_cons, Procedure.relined, hd.name, hbody, hline] at hothers ⊢
    rw [hothers]

theorem bindLoose_agree {loose loose' : List Statement} (h : BodyMoved R loose loose') :
    Agree (CompileError.Moved R) (SameTable f g) (bindLoose names loose)
      (bindLoose names loose') := by
  rcases loose with _ | ⟨s, rest⟩ <;> rcases loose' with _ | ⟨s', rest'⟩
  · exact .ok rfl
  · cases h
  · cases h
  · have hline := h.line.agree hfg
    refine (bindBody_agree names hfg h).bind fun body body' hbody => .ok ?_
    simp only [SameTable, List.map_cons, List.map_nil, Procedure.relined, hbody, hline]

/-- Trees that differ only in places are bound alike, and related places stand behind their lines. -/
theorem bind_agree {text text' : Listing} (h : text.Moved R text') :
    Agree CompileError.SameCause (fun p p' => p.relined f = p'.relined g) (bind text)
      (bind text') := by
  have hcause (e e' : CompileError) (he : e.Moved R e') : e.SameCause e' := he.cause_eq
  unfold bind
  dsimp only
  rw [definedNames_eq h.definitions]
  refine ((checkDefinitions_agree h.definitions []).weaken hcause).bind fun _ _ _ => ?_
  refine (chooseEntry_agree _ h.loose).bind ?_
  rintro entry _ rfl
  refine ((bindDefinitions_agree _ hfg h.definitions).weaken hcause).bind ?_
  intro defined defined' hdefined
  refine ((bindLoose_agree _ hfg h.loose).weaken hcause).bind ?_
  intro implicit implicit' himplicit
  refine .ok ?_
  simp only [SameTable] at hdefined himplicit
  simp only [Program.relined, List.map_append, hdefined, himplicit]

end

/-! ### Compiling -/

/-- The refusals are errors with the same cause, or a count is too long in both texts. -/
inductive Refusal.Moved : Refusal → Refusal → Prop where
  | error {e e' : CompileError} (h : e.SameCause e') : Refusal.Moved (.error e) (.error e')
  | numberTooLong : Refusal.Moved .numberTooLong .numberTooLong

variable {limit : Int} {source source' : String} {text text' : TokenList}

theorem parseWithin_agree (hlimit : 1 ≤ limit) (h : Relaid R text.tokens text'.tokens)
    (hfinish : R text.finish text'.finish) :
    Agree Refusal.Moved (Listing.Moved R) (parseWithin limit text) (parseWithin limit text') := by
  have hparse := parse_agree limit.toNat h hfinish
  unfold parseWithin
  rw [if_neg (by omega), if_neg (by omega)]
  generalize parse limit.toNat text = x, parse limit.toNat text' = y at hparse
  cases hparse with
  | ok hlisting => exact .ok hlisting
  | error he =>
    cases he with
    | error hmoved => exact .error (.error hmoved.cause_eq)
    | numberTooLong => exact .error .numberTooLong

theorem compile_agree (hlimit : 1 ≤ limit) (htext : tokenize source = .ok text)
    (htext' : tokenize source' = .ok text')
    (hsame : text.tokens.map Token.lexeme = text'.tokens.map Token.lexeme) :
    Agree Refusal.Moved (fun p p' => p.unlined = p'.unlined) (compile limit source)
      (compile limit source') := by
  have hrelaid : Relaid (fun _ _ => True) text.tokens text'.tokens :=
    relaid_of_lexemes (fun _ _ => trivial) hsame
  unfold compile
  rw [htext, htext']
  refine (parseWithin_agree hlimit hrelaid trivial).bind fun listing listing' hlisting => ?_
  have hbind := bind_agree (linesAgree_const _) hlisting
  simp only [Program.relined_const] at hbind
  exact hbind.mapError fun e e' he => .error he

/-- Texts of the same lexemes, wherever these stand, are compiled alike: to programs that differ
only in lines, or they are refused with errors of the same kind and for the same reason, or a repeat
count is too long in both. -/
theorem compile_relaid (hlimit : 1 ≤ limit) (htext : tokenize source = .ok text)
    (htext' : tokenize source' = .ok text')
    (hsame : text.tokens.map Token.lexeme = text'.tokens.map Token.lexeme) :
    (∃ p p', compile limit source = .ok p ∧ compile limit source' = .ok p' ∧
        p.unlined = p'.unlined) ∨
      (∃ e e', compile limit source = .error (.error e) ∧
        compile limit source' = .error (.error e') ∧
        e.cause.kind = e'.cause.kind ∧ e.cause.reason = e'.cause.reason) ∨
      (compile limit source = .error .numberTooLong ∧
        compile limit source' = .error .numberTooLong) := by
  have hagree := compile_agree hlimit htext htext' hsame
  generalize compile limit source = x, compile limit source' = y at hagree
  cases hagree with
  | ok hp => exact .inl ⟨_, _, rfl, rfl, hp⟩
  | error he =>
    cases he with
    | @error e e' hcause =>
      have hcause : e.cause = e'.cause := hcause
      exact .inr (.inl ⟨e, e', rfl, rfl, by rw [hcause], by rw [hcause]⟩)
    | numberTooLong => exact .inr (.inr ⟨rfl, rfl⟩)

theorem compile_relaid_move :
    (∃ text text', tokenize "move();" = .ok text ∧ tokenize "//go\n\nmove( );" = .ok text' ∧
      text ≠ text' ∧ text.tokens.map Token.lexeme = text'.tokens.map Token.lexeme) ∧
      ((∃ p p', compile 1 "move();" = .ok p ∧ compile 1 "//go\n\nmove( );" = .ok p' ∧
          p.unlined = p'.unlined) ∨
        (∃ e e', compile 1 "move();" = .error (.error e) ∧
          compile 1 "//go\n\nmove( );" = .error (.error e') ∧
          e.cause.kind = e'.cause.kind ∧ e.cause.reason = e'.cause.reason) ∨
        (compile 1 "move();" = .error .numberTooLong ∧
          compile 1 "//go\n\nmove( );" = .error .numberTooLong)) := by
  have htext : tokenize "move();" =
      .ok ⟨[⟨.word "move", ⟨1, 1⟩⟩, ⟨.symbol .leftParen, ⟨1, 5⟩⟩, ⟨.symbol .rightParen, ⟨1, 6⟩⟩,
        ⟨.symbol .semicolon, ⟨1, 7⟩⟩], ⟨1, 8⟩⟩ := by cbv
  have htext' : tokenize "//go\n\nmove( );" =
      .ok ⟨[⟨.word "move", ⟨3, 1⟩⟩, ⟨.symbol .leftParen, ⟨3, 5⟩⟩, ⟨.symbol .rightParen, ⟨3, 7⟩⟩,
        ⟨.symbol .semicolon, ⟨3, 8⟩⟩], ⟨3, 9⟩⟩ := by cbv
  exact ⟨⟨_, _, htext, htext', by decide, rfl⟩, compile_relaid (by decide) htext htext' rfl⟩

end Source

end GridRobot
