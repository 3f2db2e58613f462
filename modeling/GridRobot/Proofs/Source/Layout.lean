import GridRobot.Proofs.Reading
import GridRobot.Source.Parser
import Mathlib.Data.List.Forall2

/-!
# Reading a text in another layout

Two texts of the same lexemes may differ in where these stand. The places are noted in the tree and
told in a failure, and nothing else is made of them: both texts are read as the same tree but for
the places, or neither is and for the same cause. If moreover the lexemes stand at places that are
related in some way, then so are the places that are noted or told. A relation of places that leaves
nothing out says that the layout makes no other difference; a relation of each place in a text with
itself says that no other places are noted or told.

The two readings are followed side by side. For each reading function it is said that from rows
of the same lexemes it comes to outcomes that agree.

## Main definitions

* `Agree` says that two computations come to related values, or both fail in related ways.
* `Relaid` says that two rows of tokens have the same lexemes, at related places.
* `Condition.Moved`, `BodyMoved` and `Listing.Moved` say that two trees differ only in places, and
  that these are related.

## Main statements

* `parseOr_alike`, `parseStatement_alike`: conditions and statements.
* `parse_agree`: whole texts.
-/

namespace GridRobot.Source

section

variable {ε α β α' β' : Type} {E : ε → ε → Prop} {V : α → β → Prop} {W : α' → β' → Prop}

/-- Both computations come to values in one relation, or both fail with errors in another. -/
inductive Agree (E : ε → ε → Prop) (V : α → β → Prop) : Except ε α → Except ε β → Prop where
  | ok {a : α} {b : β} (h : V a b) : Agree E V (.ok a) (.ok b)
  | error {e e' : ε} (h : E e e') : Agree E V (.error e) (.error e')

theorem Agree.bind {x : Except ε α} {y : Except ε β} {f : α → Except ε α'} {g : β → Except ε β'}
    (h : Agree E V x y) (hfg : ∀ a b, V a b → Agree E W (f a) (g b)) :
    Agree E W (x >>= f) (y >>= g) := by
  cases h with
  | ok hab => exact hfg _ _ hab
  | error he => exact .error he

theorem Agree.weaken {F : ε → ε → Prop} {x : Except ε α} {y : Except ε β} (h : Agree E V x y)
    (hE : ∀ e e', E e e' → F e e') : Agree F V x y := by
  cases h with
  | ok hab => exact .ok hab
  | error he => exact .error (hE _ _ he)

theorem Agree.mapError {δ : Type} {F : δ → δ → Prop} {f : ε → δ} {x : Except ε α} {y : Except ε β}
    (h : Agree E V x y) (hf : ∀ e e', E e e' → F (f e) (f e')) :
    Agree F V (x.mapError f) (y.mapError f) := by
  cases h with
  | ok hab => exact .ok hab
  | error he => exact .error (hf _ _ he)

/-- What a computation that agrees with itself comes to is related to itself. -/
theorem Agree.of_ok {U : α → α → Prop} {x : Except ε α} {a : α} (h : Agree E U x x)
    (hx : x = .ok a) : U a a := by
  subst hx
  cases h
  assumption

theorem Agree.of_error {U : α → α → Prop} {x : Except ε α} {e : ε} (h : Agree E U x x)
    (hx : x = .error e) : E e e := by
  subst hx
  cases h
  assumption

end

/-! ### Trees that differ in places -/

section

variable (R : Position → Position → Prop)

/-- The tokens say the same, and stand at related places. -/
structure Token.Moved (t t' : Token) : Prop where
  lexeme : t.lexeme = t'.lexeme
  position : R t.position t'.position

/-- The rows have the same lexemes, at related places. -/
inductive Relaid : List Token → List Token → Prop where
  | nil : Relaid [] []
  | cons (l : Lexeme) {p p' : Position} {ts ts' : List Token} (hp : R p p') (h : Relaid ts ts') :
      Relaid (⟨l, p⟩ :: ts) (⟨l, p'⟩ :: ts')

/-- The same number of levels may be open, and the texts end at related places. -/
structure Bounds.Moved (b b' : Bounds) : Prop where
  limit : b.limit = b'.limit
  finish : R b.finish b'.finish

/-- The lines are those of related places. -/
inductive LineMoved : Nat → Nat → Prop where
  | of {p p' : Position} (hp : R p p') : LineMoved p.line p'.line

/-- The calls differ at most in their places. -/
inductive Call.Moved : Call → Call → Prop where
  | mk (name : String) (arguments : Nat) {p p' : Position} (hp : R p p') :
      Call.Moved ⟨name, arguments, p⟩ ⟨name, arguments, p'⟩

/-- The conditions differ at most in places. -/
inductive Condition.Moved : Condition → Condition → Prop where
  | call {c c' : Call} (hc : c.Moved R c') : Condition.Moved (.call c) (.call c')
  | not {c c' : Condition} {line line' : Nat} (hline : LineMoved R line line')
      (hc : Condition.Moved c c') : Condition.Moved (.not c line) (.not c' line')
  | binary {op : Connective} {l l' r r' : Condition} {line line' : Nat}
      (hline : LineMoved R line line') (hl : Condition.Moved l l') (hr : Condition.Moved r r') :
      Condition.Moved (.binary op l r line) (.binary op l' r' line')

/-- The rows of statements differ at most in places. -/
inductive BodyMoved : List Statement → List Statement → Prop where
  | nil : BodyMoved [] []
  | call {c c' : Call} {rest rest' : List Statement} (hc : c.Moved R c')
      (hrest : BodyMoved rest rest') : BodyMoved (.call c :: rest) (.call c' :: rest')
  | ifElse {c c' : Condition} {t t' e e' rest rest' : List Statement} {line line' : Nat}
      (hline : LineMoved R line line') (hc : c.Moved R c') (ht : BodyMoved t t')
      (he : BodyMoved e e') (hrest : BodyMoved rest rest') :
      BodyMoved (.ifElse c t e line :: rest) (.ifElse c' t' e' line' :: rest')
  | whileLoop {c c' : Condition} {body body' rest rest' : List Statement} {line line' : Nat}
      (hline : LineMoved R line line') (hc : c.Moved R c') (hbody : BodyMoved body body')
      (hrest : BodyMoved rest rest') :
      BodyMoved (.whileLoop c body line :: rest) (.whileLoop c' body' line' :: rest')
  | doWhile {c c' : Condition} {body body' rest rest' : List Statement} {line line' : Nat}
      (hline : LineMoved R line line') (hbody : BodyMoved body body') (hc : c.Moved R c')
      (hrest : BodyMoved rest rest') :
      BodyMoved (.doWhile body c line :: rest) (.doWhile body' c' line' :: rest')
  | repeatLoop {count : Nat} {body body' rest rest' : List Statement} {line line' : Nat}
      (hline : LineMoved R line line') (hbody : BodyMoved body body')
      (hrest : BodyMoved rest rest') :
      BodyMoved (.repeatLoop count body line :: rest) (.repeatLoop count body' line' :: rest')

/-- The statements differ at most in places. -/
def Statement.Moved (s s' : Statement) : Prop :=
  BodyMoved R [s] [s']

/-- The definitions differ at most in places. -/
structure Definition.Moved (d d' : Definition) : Prop where
  name : d.name = d'.name
  body : BodyMoved R d.body d'.body
  position : R d.position d'.position

/-- The texts differ at most in places. -/
structure Listing.Moved (text text' : Listing) : Prop where
  definitions : List.Forall₂ (Definition.Moved R) text.definitions text'.definitions
  loose : BodyMoved R text.loose text'.loose

/-- The errors have the same cause, and stand at related places. -/
inductive CompileError.Moved : CompileError → CompileError → Prop where
  | located (cause : Cause) {p p' : Position} (hp : R p p') :
      CompileError.Moved (.located p cause) (.located p' cause)

/-- The failures are the same, or errors with the same cause at related places. -/
inductive Failure.Moved : Failure → Failure → Prop where
  | error {e e' : CompileError} (h : e.Moved R e') : Failure.Moved (.error e) (.error e')
  | numberTooLong : Failure.Moved .numberTooLong .numberTooLong

end

variable {R : Position → Position → Prop}

theorem CompileError.Moved.cause_eq {e e' : CompileError} (h : e.Moved R e') :
    e.cause = e'.cause := by
  cases h
  rfl

theorem Token.Moved.cons {t t' : Token} {ts ts' : List Token} (ht : t.Moved R t')
    (h : Relaid R ts ts') : Relaid R (t :: ts) (t' :: ts') := by
  obtain ⟨l, p⟩ := t
  obtain ⟨l', p'⟩ := t'
  obtain rfl : l = l' := ht.lexeme
  exact .cons l ht.position h

theorem relaid_of_lexemes (hR : ∀ p p', R p p') {ts ts' : List Token}
    (h : ts.map Token.lexeme = ts'.map Token.lexeme) : Relaid R ts ts' := by
  induction ts generalizing ts' with
  | nil =>
    obtain rfl := List.map_eq_nil_iff.1 h.symm
    exact .nil
  | cons t ts ih =>
    rw [List.map_cons] at h
    obtain ⟨t', rest, rfl, ht, hrest⟩ := List.map_eq_cons_iff.1 h.symm
    have ht : t.Moved R t' := ⟨ht.symm, hR _ _⟩
    exact ht.cons (ih hrest.symm)

theorem Relaid.length_eq {ts ts' : List Token} (h : Relaid R ts ts') :
    ts.length = ts'.length := by
  induction h with
  | nil => rfl
  | cons _ _ _ ih => simp [ih]

theorem Condition.Moved.height_eq {c c' : Condition} (h : c.Moved R c') :
    c.height = c'.height := by
  induction h with
  | call => rfl
  | not _ _ ih => simp [Condition.height, ih]
  | binary _ _ _ ihl ihr => simp [Condition.height, ihl, ihr]

theorem BodyMoved.append {body body' rest rest' : List Statement} (h : BodyMoved R body body')
    (hrest : BodyMoved R rest rest') : BodyMoved R (body ++ rest) (body' ++ rest') := by
  induction h with
  | nil => exact hrest
  | call hc _ ih => exact .call hc ih
  | ifElse hline hc ht he _ _ _ ih => exact .ifElse hline hc ht he ih
  | whileLoop hline hc hbody _ _ ih => exact .whileLoop hline hc hbody ih
  | doWhile hline hbody hc _ _ ih => exact .doWhile hline hbody hc ih
  | repeatLoop hline hbody _ _ ih => exact .repeatLoop hline hbody ih

/-! ### Single tokens and limits -/

section

variable {α : Type} {V : α → α → Prop} {ts ts' : List Token}

/-- Two readings come to related trees and leave the same lexemes, or fail for the same cause. -/
def ReadAlike (R : Position → Position → Prop) (V : α → α → Prop) (r : Reading α ts)
    (r' : Reading α ts') : Prop :=
  Agree (Failure.Moved R) (fun s s' => V s.value s'.value ∧ Relaid R s.rest s'.rest) r r'

/-- So do two readings that may use up no token. -/
def PauseAlike (R : Position → Position → Prop) (V : α → α → Prop) (r : Except Failure (Pause α ts))
    (r' : Except Failure (Pause α ts')) : Prop :=
  Agree (Failure.Moved R) (fun s s' => V s.value s'.value ∧ Relaid R s.rest s'.rest) r r'

variable {β γ : Type} {W : β → γ → Prop}

theorem ReadAlike.bind {r : Reading α ts} {r' : Reading α ts'}
    {f : Step α ts → Except Failure β} {g : Step α ts' → Except Failure γ} (h : ReadAlike R V r r')
    (hfg : ∀ v v' rest rest' (hlt : rest.length < ts.length) (hlt' : rest'.length < ts'.length),
      V v v' → Relaid R rest rest' →
        Agree (Failure.Moved R) W (f ⟨v, rest, hlt⟩) (g ⟨v', rest', hlt'⟩)) :
    Agree (Failure.Moved R) W (r >>= f) (r' >>= g) :=
  Agree.bind h fun s s' hs => hfg s.value s'.value s.rest s'.rest s.rest_lt s'.rest_lt hs.1 hs.2

theorem PauseAlike.bind {r : Except Failure (Pause α ts)} {r' : Except Failure (Pause α ts')}
    {f : Pause α ts → Except Failure β} {g : Pause α ts' → Except Failure γ}
    (h : PauseAlike R V r r')
    (hfg : ∀ v v' rest rest' (hle : rest.length ≤ ts.length) (hle' : rest'.length ≤ ts'.length),
      V v v' → Relaid R rest rest' →
        Agree (Failure.Moved R) W (f ⟨v, rest, hle⟩) (g ⟨v', rest', hle'⟩)) :
    Agree (Failure.Moved R) W (r >>= f) (r' >>= g) :=
  Agree.bind h fun s s' hs => hfg s.value s'.value s.rest s'.rest s.rest_le s'.rest_le hs.1 hs.2

end

variable {b b' : Bounds} {ts ts' : List Token} {α β : Type} {V : α → β → Prop}

theorem failHere_agree (hb : b.Moved R b') (h : Relaid R ts ts') {cause : Option Lexeme → Cause} :
    Agree (Failure.Moved R) V (failHere b ts cause) (failHere b' ts' cause) := by
  cases h with
  | nil => exact .error (.error (.located _ hb.finish))
  | cons _ hp _ => exact .error (.error (.located _ hp))

theorem failAt_agree {t t' : Token} (ht : R t.position t'.position) {cause cause' : Cause}
    (h : cause = cause') : Agree (Failure.Moved R) V (failAt t cause) (failAt t' cause') :=
  h ▸ .error (.error (.located cause ht))

theorem expectLexeme_alike (hb : b.Moved R b') (h : Relaid R ts ts') (l : Lexeme) :
    ReadAlike R (Token.Moved R) (expectLexeme b l ts) (expectLexeme b' l ts') := by
  cases h with
  | nil => exact failHere_agree hb .nil
  | cons found hp h =>
    simp only [expectLexeme]
    split
    · exact .ok ⟨⟨rfl, hp⟩, h⟩
    · exact failHere_agree hb (.cons found hp h)

theorem expectSymbol_alike (hb : b.Moved R b') (h : Relaid R ts ts') (s : Symbol) :
    ReadAlike R (Token.Moved R) (expectSymbol b s ts) (expectSymbol b' s ts') :=
  expectLexeme_alike hb h (.symbol s)

theorem expectName_alike (hb : b.Moved R b') (h : Relaid R ts ts') :
    ReadAlike R (fun x x' => x.1 = x'.1 ∧ R x.2 x'.2) (expectName b ts) (expectName b' ts') := by
  cases h with
  | nil => exact failHere_agree hb .nil
  | cons found hp h =>
    cases found with
    | word name => exact .ok ⟨⟨rfl, hp⟩, h⟩
    | _ => exact failHere_agree hb (.cons _ hp h)

/-! ### Calls -/

theorem parseArgument_alike (hb : b.Moved R b') (h : Relaid R ts ts') :
    ReadAlike R (Token.Moved R) (parseArgument b ts) (parseArgument b' ts') := by
  cases h with
  | nil => exact failHere_agree hb .nil
  | cons found hp h =>
    cases found with
    | word name => exact .ok ⟨⟨rfl, hp⟩, h⟩
    | number digits => exact .ok ⟨⟨rfl, hp⟩, h⟩
    | _ => exact failHere_agree hb (.cons _ hp h)

theorem parseMoreArguments_alike (hb : b.Moved R b') {ts ts' : List Token} (h : Relaid R ts ts') :
    ReadAlike R (Relaid R) (parseMoreArguments b ts) (parseMoreArguments b' ts') := by
  rw [parseMoreArguments, parseMoreArguments]
  refine (parseArgument_alike hb h).bind ?_
  intro first first' mid mid' hlt hlt' hfirst hmid
  dsimp only
  split
  · cases hmid with
    | cons _ _ hafter => exact .ok ⟨hfirst.cons .nil, hafter⟩
  · rename_i hmore
    split
    · cases hmid with
      | cons _ _ _ => exact (hmore _ _ hlt rfl HEq.rfl).elim
    · refine (expectSymbol_alike hb hmid .comma).bind ?_
      intro _ _ after after' hlt₁ _ _ hafter
      refine (parseMoreArguments_alike hb hafter).bind ?_
      intro others others' beyond beyond' _ _ hothers hbeyond
      exact .ok ⟨hfirst.cons hothers, hbeyond⟩
termination_by ts.length

theorem parseArguments_alike (hb : b.Moved R b') (h : Relaid R ts ts') :
    ReadAlike R (Relaid R) (parseArguments b ts) (parseArguments b' ts') := by
  unfold parseArguments
  split
  · cases h with
    | cons _ _ hrest => exact .ok ⟨.nil, hrest⟩
  · rename_i hmore
    split
    · cases h with
      | cons _ _ _ => exact (hmore _ _ rfl).elim
    · exact parseMoreArguments_alike hb h

theorem parseCall_alike (hb : b.Moved R b') (h : Relaid R ts ts') :
    ReadAlike R (Call.Moved R) (parseCall b ts) (parseCall b' ts') := by
  refine (expectName_alike hb h).bind ?_
  rintro ⟨name, p⟩ ⟨_, p'⟩ rest rest' _ _ ⟨rfl, hp⟩ hrest
  refine (expectSymbol_alike hb hrest .leftParen).bind ?_
  intro _ _ after after' _ _ _ hafter
  refine (parseArguments_alike hb hafter).bind ?_
  intro arguments arguments' beyond beyond' _ _ harguments hbeyond
  refine .ok ⟨?_, hbeyond⟩
  rw [harguments.length_eq]
  exact .mk name _ hp

/-! ### Conditions -/

theorem checkLevels_agree (hb : b.Moved R b') (levels : Nat) {t t' : Token}
    (ht : R t.position t'.position) :
    Agree (Failure.Moved R) (fun _ _ => True) (checkLevels b levels t)
      (checkLevels b' levels t') := by
  unfold checkLevels
  rw [hb.limit]
  split
  · exact .ok trivial
  · exact failAt_agree ht rfl

theorem connect_agree (hb : b.Moved R b') (op : Connective)
    {left left' right right' : Condition} (hleft : left.Moved R left')
    (hright : right.Moved R right') {t t' : Token} (ht : R t.position t'.position) :
    Agree (Failure.Moved R) (Condition.Moved R) (connect b op left right t)
      (connect b' op left' right' t') := by
  have hmoved : (Condition.binary op left right t.position.line).Moved R
      (.binary op left' right' t'.position.line) := .binary (.of ht) hleft hright
  unfold connect
  dsimp only
  rw [hmoved.height_eq]
  exact (checkLevels_agree hb _ ht).bind fun _ _ _ => .ok hmoved

mutual

theorem parseOr_alike (hb : b.Moved R b') (depth : Nat) {ts ts' : List Token}
    (h : Relaid R ts ts') :
    ReadAlike R (Condition.Moved R) (parseOr b depth ts) (parseOr b' depth ts') := by
  rw [parseOr, parseOr]
  refine (parseAnd_alike hb depth h).bind ?_
  intro left left' mid mid' hlt _ hleft hmid
  refine (parseOrMore_alike hb depth hleft hmid).bind ?_
  intro c c' rest rest' _ _ hc hrest
  exact .ok ⟨hc, hrest⟩
termination_by (ts.length, 3)

theorem parseOrMore_alike (hb : b.Moved R b') (depth : Nat) {left left' : Condition}
    (hleft : left.Moved R left') {ts ts' : List Token} (h : Relaid R ts ts') :
    PauseAlike R (Condition.Moved R) (parseOrMore b depth left ts)
      (parseOrMore b' depth left' ts') := by
  cases h with
  | nil =>
    rw [parseOrMore, parseOrMore]
    exact .ok ⟨hleft, .nil⟩
  | cons l hp h =>
    rw [parseOrMore, parseOrMore]
    dsimp only
    split
    · refine (parseAnd_alike hb depth h).bind ?_
      intro right right' after after' hlt _ hright hafter
      refine (connect_agree hb .either hleft hright hp).bind ?_
      intro both both' hboth
      refine (parseOrMore_alike hb depth hboth hafter).bind ?_
      intro c c' rest rest' _ _ hc hrest
      exact .ok ⟨hc, hrest⟩
    · exact .ok ⟨hleft, .cons l hp h⟩
termination_by (ts.length, 0)

theorem parseAnd_alike (hb : b.Moved R b') (depth : Nat) {ts ts' : List Token}
    (h : Relaid R ts ts') :
    ReadAlike R (Condition.Moved R) (parseAnd b depth ts) (parseAnd b' depth ts') := by
  rw [parseAnd, parseAnd]
  refine (parseUnary_alike hb depth h).bind ?_
  intro left left' mid mid' hlt _ hleft hmid
  refine (parseAndMore_alike hb depth hleft hmid).bind ?_
  intro c c' rest rest' _ _ hc hrest
  exact .ok ⟨hc, hrest⟩
termination_by (ts.length, 2)

theorem parseAndMore_alike (hb : b.Moved R b') (depth : Nat) {left left' : Condition}
    (hleft : left.Moved R left') {ts ts' : List Token} (h : Relaid R ts ts') :
    PauseAlike R (Condition.Moved R) (parseAndMore b depth left ts)
      (parseAndMore b' depth left' ts') := by
  cases h with
  | nil =>
    rw [parseAndMore, parseAndMore]
    exact .ok ⟨hleft, .nil⟩
  | cons l hp h =>
    rw [parseAndMore, parseAndMore]
    dsimp only
    split
    · refine (parseUnary_alike hb depth h).bind ?_
      intro right right' after after' hlt _ hright hafter
      refine (connect_agree hb .both hleft hright hp).bind ?_
      intro both both' hboth
      refine (parseAndMore_alike hb depth hboth hafter).bind ?_
      intro c c' rest rest' _ _ hc hrest
      exact .ok ⟨hc, hrest⟩
    · exact .ok ⟨hleft, .cons l hp h⟩
termination_by (ts.length, 0)

theorem parseUnary_alike (hb : b.Moved R b') (depth : Nat) {ts ts' : List Token}
    (h : Relaid R ts ts') :
    ReadAlike R (Condition.Moved R) (parseUnary b depth ts) (parseUnary b' depth ts') := by
  cases h with
  | nil =>
    rw [parseUnary, parseUnary]
    exact failHere_agree hb .nil
  | @cons l p p' _ _ hp h =>
    rw [parseUnary, parseUnary]
    cases l with
    | word name =>
      refine (parseCall_alike hb (.cons (.word name) hp h)).bind ?_
      intro call call' after after' _ _ hcall hafter
      exact .ok ⟨.call hcall, hafter⟩
    | symbol s =>
      cases s with
      | bang =>
        refine (checkLevels_agree hb _ hp).bind fun _ _ _ => ?_
        refine (parseUnary_alike hb (depth + 1) h).bind ?_
        intro operand operand' after after' _ _ hoperand hafter
        have hmoved : (Condition.not operand p.line).Moved R (.not operand' p'.line) :=
          .not (.of hp) hoperand
        dsimp only
        rw [hmoved.height_eq]
        exact (checkLevels_agree hb _ hp).bind fun _ _ _ => .ok ⟨hmoved, hafter⟩
      | leftParen =>
        refine (checkLevels_agree hb _ hp).bind fun _ _ _ => ?_
        refine (parseOr_alike hb (depth + 1) h).bind ?_
        intro inner inner' after after' _ _ hinner hafter
        refine (expectSymbol_alike hb hafter .rightParen).bind ?_
        intro _ _ beyond beyond' _ _ _ hbeyond
        exact .ok ⟨hinner, hbeyond⟩
      | _ => exact failHere_agree hb (.cons _ hp h)
    | _ => exact failHere_agree hb (.cons _ hp h)
termination_by (ts.length, 1)

end

theorem parseCondition_alike (hb : b.Moved R b') (depth : Nat) (h : Relaid R ts ts') :
    ReadAlike R (Condition.Moved R) (parseCondition b depth ts) (parseCondition b' depth ts') := by
  refine (expectSymbol_alike hb h .leftParen).bind ?_
  intro _ _ rest rest' _ _ _ hrest
  refine (parseOr_alike hb depth hrest).bind ?_
  intro c c' after after' _ _ hc hafter
  refine (expectSymbol_alike hb hafter .rightParen).bind ?_
  intro _ _ beyond beyond' _ _ _ hbeyond
  exact .ok ⟨hc, hbeyond⟩

/-! ### Statements -/

theorem parseCount_alike (hb : b.Moved R b') {t t' : Token} (ht : R t.position t'.position)
    (h : Relaid R ts ts') : ReadAlike R Eq (parseCount b t ts) (parseCount b' t' ts') := by
  refine (expectSymbol_alike hb h .leftParen).bind ?_
  intro _ _ rest rest' _ _ _ hrest
  refine (parseArguments_alike hb hrest).bind ?_
  intro arguments arguments' after after' _ _ harguments hafter
  have hgiven := harguments.length_eq
  cases harguments with
  | nil => exact failAt_agree ht rfl
  | cons l hp hmore =>
    cases hmore with
    | nil =>
      cases l with
      | number digits =>
        dsimp only
        cases Text.readDigits digits.toList with
        | ok count => exact .ok ⟨rfl, hafter⟩
        | error e => exact .error .numberTooLong
      | _ => exact failAt_agree hp rfl
    | cons => cases l <;> exact failAt_agree ht (congrArg Cause.repeatArguments hgiven)

mutual

theorem parseBlock_alike (hb : b.Moved R b') (depth : Nat) {ts ts' : List Token}
    (h : Relaid R ts ts') :
    ReadAlike R (BodyMoved R) (parseBlock b depth ts) (parseBlock b' depth ts') := by
  rw [parseBlock, parseBlock]
  refine (expectSymbol_alike hb h .leftBrace).bind ?_
  intro brace brace' rest rest' hlt _ hbrace hrest
  refine (checkLevels_agree hb _ hbrace.position).bind fun _ _ _ => ?_
  refine (parseBody_alike hb (depth + 1) hrest).bind ?_
  intro body body' after after' _ _ hbody hafter
  exact .ok ⟨hbody, hafter⟩
termination_by (ts.length, 0)

theorem parseBody_alike (hb : b.Moved R b') (depth : Nat) {ts ts' : List Token}
    (h : Relaid R ts ts') :
    ReadAlike R (BodyMoved R) (parseBody b depth ts) (parseBody b' depth ts') := by
  cases h with
  | nil =>
    rw [parseBody, parseBody]
    exact failHere_agree hb .nil
  | cons l hp h =>
    rw [parseBody, parseBody]
    dsimp only
    split
    · exact .ok ⟨.nil, h⟩
    · refine (parseStatement_alike hb depth (.cons l hp h)).bind ?_
      intro first first' after after' hlt _ hfirst hafter
      refine (parseBody_alike hb depth hafter).bind ?_
      intro others others' beyond beyond' _ _ hothers hbeyond
      exact .ok ⟨hfirst.append hothers, hbeyond⟩
termination_by (ts.length, 1)

theorem parseStatement_alike (hb : b.Moved R b') (depth : Nat) {ts ts' : List Token}
    (h : Relaid R ts ts') :
    ReadAlike R (fun s s' => BodyMoved R s.toList s'.toList) (parseStatement b depth ts)
      (parseStatement b' depth ts') := by
  cases h with
  | nil =>
    rw [parseStatement, parseStatement]
    exact failHere_agree hb .nil
  | cons l hp h =>
    rw [parseStatement, parseStatement]
    cases l with
    | word name =>
      refine (parseCall_alike hb (.cons (.word name) hp h)).bind ?_
      intro call call' after after' _ _ hcall hafter
      refine (expectSymbol_alike hb hafter .semicolon).bind ?_
      intro _ _ beyond beyond' _ _ _ hbeyond
      exact .ok ⟨.call hcall .nil, hbeyond⟩
    | number digits => exact failHere_agree hb (.cons _ hp h)
    | symbol s =>
      cases s with
      | semicolon => exact .ok ⟨.nil, h⟩
      | _ => exact failHere_agree hb (.cons _ hp h)
    | keyword k =>
      cases k with
      | ifWord =>
        refine (parseIf_alike hb depth hp h).bind ?_
        intro s s' after after' _ _ hs hafter
        exact .ok ⟨hs, hafter⟩
      | whileWord =>
        refine (parseCondition_alike hb depth h).bind ?_
        intro c c' after after' hlt _ hc hafter
        refine (parseBlock_alike hb depth hafter).bind ?_
        intro body body' beyond beyond' _ _ hbody hbeyond
        exact .ok ⟨.whileLoop (.of hp) hc hbody .nil, hbeyond⟩
      | doWord =>
        refine (parseBlock_alike hb depth h).bind ?_
        intro body body' after after' _ _ hbody hafter
        refine (expectLexeme_alike hb hafter (.keyword .whileWord)).bind ?_
        intro _ _ after₁ after₁' _ _ _ hafter₁
        refine (parseCondition_alike hb depth hafter₁).bind ?_
        intro c c' after₂ after₂' _ _ hc hafter₂
        refine (expectSymbol_alike hb hafter₂ .semicolon).bind ?_
        intro _ _ beyond beyond' _ _ _ hbeyond
        exact .ok ⟨.doWhile (.of hp) hbody hc .nil, hbeyond⟩
      | repeatWord =>
        refine (parseCount_alike hb hp h).bind ?_
        rintro count _ after after' hlt _ rfl hafter
        refine (parseBlock_alike hb depth hafter).bind ?_
        intro body body' beyond beyond' _ _ hbody hbeyond
        exact .ok ⟨.repeatLoop (.of hp) hbody .nil, hbeyond⟩
      | function => exact failAt_agree hp rfl
      | void => exact failAt_agree hp rfl
      | elseWord => exact failHere_agree hb (.cons _ hp h)
termination_by (ts.length, 0)

theorem parseIf_alike (hb : b.Moved R b') (depth : Nat) {t t' : Token}
    (ht : R t.position t'.position) {ts ts' : List Token}
    (h : Relaid R ts ts') :
    ReadAlike R (Statement.Moved R) (parseIf b depth t ts) (parseIf b' depth t' ts') := by
  rw [parseIf, parseIf]
  refine (parseCondition_alike hb depth h).bind ?_
  intro c c' rest rest' hlt _ hc hrest
  refine (parseBlock_alike hb depth hrest).bind ?_
  intro thenBody thenBody' after after' hlt₁ _ hthen hafter
  refine (parseElse_alike hb depth hafter).bind ?_
  intro elseBody elseBody' beyond beyond' _ _ helse hbeyond
  exact .ok ⟨.ifElse (.of ht) hc hthen helse .nil, hbeyond⟩
termination_by (ts.length, 0)

theorem parseElse_alike (hb : b.Moved R b') (depth : Nat) {ts ts' : List Token}
    (h : Relaid R ts ts') :
    PauseAlike R (BodyMoved R) (parseElse b depth ts) (parseElse b' depth ts') := by
  cases h with
  | nil =>
    unfold parseElse
    exact .ok ⟨.nil, .nil⟩
  | @cons l p p' rest rest' hp hrest =>
    by_cases hl : l = .keyword .elseWord
    · subst hl
      by_cases hchain : ∃ p₁ after, rest = ⟨.keyword .ifWord, p₁⟩ :: after
      · obtain ⟨p₁, after, rfl⟩ := hchain
        cases hrest with
        | cons _ hp₁ hafter =>
          rw [parseElse, parseElse]
          refine (checkLevels_agree hb _ hp₁).bind fun _ _ _ => ?_
          refine (parseIf_alike hb (depth + 1) hp₁ hafter).bind ?_
          intro s s' beyond beyond' _ _ hs hbeyond
          exact .ok ⟨hs, hbeyond⟩
      · have hblock : ∀ p₁ after, rest = ⟨.keyword .ifWord, p₁⟩ :: after → False :=
          fun p₁ after h => hchain ⟨p₁, after, h⟩
        have hblock' : ∀ p₁ after, rest' = ⟨.keyword .ifWord, p₁⟩ :: after → False := by
          rintro _ _ rfl
          cases hrest with
          | cons _ _ _ => exact hblock _ _ rfl
        rw [parseElse.eq_2 b depth p rest hblock, parseElse.eq_2 b' depth p' rest' hblock']
        refine (parseBlock_alike hb depth hrest).bind ?_
        intro body body' after after' _ _ hbody hafter
        exact .ok ⟨hbody, hafter⟩
    · rw [parseElse, parseElse]
      · exact .ok ⟨.nil, .cons l hp hrest⟩
      all_goals
        intros
        simp_all
termination_by (ts.length, 0)

end

/-! ### Texts -/

theorem parseDefinition_alike (hb : b.Moved R b') (h : Relaid R ts ts') :
    ReadAlike R (Definition.Moved R) (parseDefinition b ts) (parseDefinition b' ts') := by
  refine (expectName_alike hb h).bind ?_
  rintro ⟨name, p⟩ ⟨_, p'⟩ rest rest' _ _ ⟨rfl, hp⟩ hrest
  refine (expectSymbol_alike hb hrest .leftParen).bind ?_
  intro _ _ after after' _ _ _ hafter
  refine (parseArguments_alike hb hafter).bind ?_
  intro arguments arguments' after₁ after₁' _ _ harguments hafter₁
  cases harguments with
  | nil =>
    refine (parseBlock_alike hb 0 hafter₁).bind ?_
    intro body body' beyond beyond' _ _ hbody hbeyond
    exact .ok ⟨⟨rfl, hbody, hp⟩, hbeyond⟩
  | cons => exact .error (.error (.located _ hp))

theorem parseListing_agree (hb : b.Moved R b') {ts ts' : List Token} (h : Relaid R ts ts') :
    Agree (Failure.Moved R) (Listing.Moved R) (parseListing b ts) (parseListing b' ts') := by
  cases h with
  | nil =>
    rw [parseListing, parseListing]
    exact .ok ⟨.nil, .nil⟩
  | @cons l p p' rest rest' hp h =>
    rw [parseListing, parseListing]
    dsimp only
    split
    · refine (parseDefinition_alike hb h).bind ?_
      intro d d' after after' hlt _ hd hafter
      refine (parseListing_agree hb hafter).bind fun later later' hlater => ?_
      exact .ok ⟨.cons hd hlater.definitions, hlater.loose⟩
    · refine (parseStatement_alike hb 0 (.cons l hp h)).bind ?_
      intro s s' after after' hlt _ hs hafter
      have hshorter : after.length < rest.length + 1 := hlt
      refine (parseListing_agree hb hafter).bind fun later later' hlater => ?_
      exact .ok ⟨hlater.definitions, hs.append hlater.loose⟩
termination_by ts.length

/-- Texts of the same lexemes at related places are read as the same tree but for related places, or
fail for the same cause at related places. -/
theorem parse_agree (limit : Nat) {text text' : TokenList} (h : Relaid R text.tokens text'.tokens)
    (hfinish : R text.finish text'.finish) :
    Agree (Failure.Moved R) (Listing.Moved R) (parse limit text) (parse limit text') := by
  have hb : Bounds.Moved R ⟨limit, text.finish⟩ ⟨limit, text'.finish⟩ := ⟨rfl, hfinish⟩
  exact parseListing_agree hb h

end GridRobot.Source
