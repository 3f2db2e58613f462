import GridRobot.Source.Lexer
import GridRobot.Source.Tree
import GridRobot.Text.Integer

/-!
# The grammar of program text

Each nonterminal is a relation between the tokens that are there, the tree, the levels and the tokens
that are left: `OrText ts c n rest` says that the part of `ts` before `rest` is an `Or` with the tree
`c`, and that at most `n` levels are open at once inside of it.

```
Program   = (Def | Stmt)*
Def       = ('function' | 'void') ID '(' ')' Block
Block     = '{' Stmt* '}'
Stmt      = ';' | Call ';' | If | 'while' '(' Or ')' Block
          | 'do' Block 'while' '(' Or ')' ';' | 'repeat' '(' NUMBER ')' Block
If        = 'if' '(' Or ')' Block ['else' (If | Block)]
Or        = And ('||' And)*
And       = Unary ('&&' Unary)*
Unary     = '!' Unary | '(' Or ')' | Call
Call      = ID '(' [Arg (',' Arg)*] ')'
Arg       = NUMBER | ID
```

## Main definitions

* `CallText`, `OrText`, `AndText` and `UnaryText` derive calls and conditions.
* `BlockText`, `RowText`, `StatementText`, `IfText` and `ElseText` derive statements.
* `ListingText` derives a whole text.
* `Listing.conditions` lists the conditions of a text.
* `ShortNumbers` says that the numbers among some tokens are short enough to be read.

## Main statements

* `OrText.suffix`, `StatementText.suffix`: what a derivation leaves is the end of the tokens.
* `StatementText.head`: with which tokens a statement begins.

## Design notes

A level is a block, an `if` after `else`, an operand of `!`, or a parenthesis inside of a condition.
The parentheses that belong to `if`, `while` and `repeat` are none. A row of operators of one kind is
built from the left, so that its tree groups to the left.
-/

namespace GridRobot.Source

/-! ### Calls -/

/-- The tokens that may stand as an argument. -/
inductive ArgumentToken : Token → Prop where
  | word {name : String} {p : Position} : ArgumentToken ⟨.word name, p⟩
  | number {digits : String} {p : Position} : ArgumentToken ⟨.number digits, p⟩

/-- The row `Arg (',' Arg)*`, with the tokens of the arguments. -/
inductive ArgumentRow : List Token → List Token → List Token → Prop where
  | one {a : Token} {rest : List Token} : ArgumentToken a → ArgumentRow (a :: rest) [a] rest
  | more {a : Token} {others ts rest : List Token} {p : Position} :
      ArgumentToken a → ArgumentRow ts others rest →
      ArgumentRow (a :: ⟨.symbol .comma, p⟩ :: ts) (a :: others) rest

/-- The option `[Arg (',' Arg)*]`, with the tokens of the arguments. -/
inductive ArgumentsText : List Token → List Token → List Token → Prop where
  | none {ts : List Token} : ArgumentsText ts [] ts
  | row {ts arguments rest : List Token} :
      ArgumentRow ts arguments rest → ArgumentsText ts arguments rest

/-- The rule `Call = ID '(' [Arg (',' Arg)*] ')'`; the tree counts the arguments. -/
inductive CallText : List Token → Call → List Token → Prop where
  | call {name : String} {p p₁ p₂ : Position} {ts arguments rest : List Token} :
      ArgumentsText ts arguments (⟨.symbol .rightParen, p₂⟩ :: rest) →
      CallText (⟨.word name, p⟩ :: ⟨.symbol .leftParen, p₁⟩ :: ts) ⟨name, arguments.length, p⟩ rest

theorem argumentsText_nil {ts rest : List Token} : ArgumentsText ts [] rest ↔ ts = rest := by
  constructor
  · rintro (_ | ⟨⟨⟩⟩)
    rfl
  · rintro rfl
    exact .none

theorem argumentsText_singleton {a : Token} {ts rest : List Token} :
    ArgumentsText ts [a] rest ↔ ts = a :: rest ∧ ArgumentToken a := by
  constructor
  · rintro (_ | ⟨harg⟩ | ⟨_, ⟨⟩⟩)
    exact ⟨rfl, harg⟩
  · rintro ⟨rfl, harg⟩
    exact .row (.one harg)

/-! ### Conditions -/

mutual

/-- The rule `Or = And ('||' And)*`. -/
inductive OrText : List Token → Condition → Nat → List Token → Prop where
  | one {ts rest : List Token} {c : Condition} {n : Nat} : AndText ts c n rest → OrText ts c n rest
  | more {ts mid rest : List Token} {left right : Condition} {n m : Nat} {p : Position} :
      OrText ts left n (⟨.symbol .either, p⟩ :: mid) → AndText mid right m rest →
      OrText ts (.binary .either left right p.line) (max n m) rest

/-- The rule `And = Unary ('&&' Unary)*`. -/
inductive AndText : List Token → Condition → Nat → List Token → Prop where
  | one {ts rest : List Token} {c : Condition} {n : Nat} :
      UnaryText ts c n rest → AndText ts c n rest
  | more {ts mid rest : List Token} {left right : Condition} {n m : Nat} {p : Position} :
      AndText ts left n (⟨.symbol .both, p⟩ :: mid) → UnaryText mid right m rest →
      AndText ts (.binary .both left right p.line) (max n m) rest

/-- The rule `Unary = '!' Unary | '(' Or ')' | Call`. -/
inductive UnaryText : List Token → Condition → Nat → List Token → Prop where
  | bang {ts rest : List Token} {c : Condition} {n : Nat} {p : Position} :
      UnaryText ts c n rest → UnaryText (⟨.symbol .bang, p⟩ :: ts) (.not c p.line) (n + 1) rest
  | group {ts rest : List Token} {c : Condition} {n : Nat} {p p₁ : Position} :
      OrText ts c n (⟨.symbol .rightParen, p₁⟩ :: rest) →
      UnaryText (⟨.symbol .leftParen, p⟩ :: ts) c (n + 1) rest
  | call {ts rest : List Token} {c : Call} : CallText ts c rest → UnaryText ts (.call c) 0 rest

end

/-- The part `'(' Or ')'` that follows `if` and `while`. -/
inductive ConditionText : List Token → Condition → Nat → List Token → Prop where
  | paren {ts rest : List Token} {c : Condition} {n : Nat} {p p₁ : Position} :
      OrText ts c n (⟨.symbol .rightParen, p₁⟩ :: rest) →
      ConditionText (⟨.symbol .leftParen, p⟩ :: ts) c n rest

/-! ### Statements -/

mutual

/-- The rule `Block = '{' Stmt* '}'`. -/
inductive BlockText : List Token → List Statement → Nat → List Token → Prop where
  | braces {ts rest : List Token} {body : List Statement} {n : Nat} {p p₁ : Position} :
      RowText ts body n (⟨.symbol .rightBrace, p₁⟩ :: rest) →
      BlockText (⟨.symbol .leftBrace, p⟩ :: ts) body (n + 1) rest

/-- The row `Stmt*`; a lone semicolon gives no statement of the tree. -/
inductive RowText : List Token → List Statement → Nat → List Token → Prop where
  | nil {ts : List Token} : RowText ts [] 0 ts
  | cons {ts mid rest : List Token} {s : Option Statement} {body : List Statement} {n m : Nat} :
      StatementText ts s n mid → RowText mid body m rest →
      RowText ts (s.toList ++ body) (max n m) rest

/-- The rule of `Stmt`; a lone semicolon has no tree. -/
inductive StatementText : List Token → Option Statement → Nat → List Token → Prop where
  | empty {rest : List Token} {p : Position} :
      StatementText (⟨.symbol .semicolon, p⟩ :: rest) none 0 rest
  | call {ts rest : List Token} {c : Call} {p : Position} :
      CallText ts c (⟨.symbol .semicolon, p⟩ :: rest) → StatementText ts (some (.call c)) 0 rest
  | ifElse {ts rest : List Token} {s : Statement} {n : Nat} :
      IfText ts s n rest → StatementText ts (some s) n rest
  | whileLoop {ts mid rest : List Token} {c : Condition} {body : List Statement} {n m : Nat}
      {p : Position} :
      ConditionText ts c n mid → BlockText mid body m rest →
      StatementText (⟨.keyword .whileWord, p⟩ :: ts) (some (.whileLoop c body p.line)) (max n m) rest
  | doWhile {ts mid rest : List Token} {c : Condition} {body : List Statement} {n m : Nat}
      {p p₁ p₂ : Position} :
      BlockText ts body n (⟨.keyword .whileWord, p₁⟩ :: mid) →
      ConditionText mid c m (⟨.symbol .semicolon, p₂⟩ :: rest) →
      StatementText (⟨.keyword .doWord, p⟩ :: ts) (some (.doWhile body c p.line)) (max n m) rest
  | repeatLoop {ts rest : List Token} {digits : String} {body : List Statement} {n : Nat}
      {p p₁ p₂ p₃ : Position} :
      BlockText ts body n rest →
      StatementText
        (⟨.keyword .repeatWord, p⟩ :: ⟨.symbol .leftParen, p₁⟩ :: ⟨.number digits, p₂⟩ ::
          ⟨.symbol .rightParen, p₃⟩ :: ts)
        (some (.repeatLoop (Text.digitsValue digits.toList) body p.line)) n rest

/-- The rule `If = 'if' '(' Or ')' Block ['else' (If | Block)]`. -/
inductive IfText : List Token → Statement → Nat → List Token → Prop where
  | branches {ts mid after rest : List Token} {c : Condition} {t e : List Statement} {n m k : Nat}
      {p : Position} :
      ConditionText ts c n mid → BlockText mid t m after → ElseText after e k rest →
      IfText (⟨.keyword .ifWord, p⟩ :: ts) (.ifElse c t e p.line) (max n (max m k)) rest

/-- The option `['else' (If | Block)]`; an `if` after `else` is a level. -/
inductive ElseText : List Token → List Statement → Nat → List Token → Prop where
  | nothing {ts : List Token} : ElseText ts [] 0 ts
  | block {ts rest : List Token} {body : List Statement} {n : Nat} {p : Position} :
      BlockText ts body n rest → ElseText (⟨.keyword .elseWord, p⟩ :: ts) body n rest
  | chain {ts rest : List Token} {s : Statement} {n : Nat} {p : Position} :
      IfText ts s n rest → ElseText (⟨.keyword .elseWord, p⟩ :: ts) [s] (n + 1) rest

end

/-! ### Texts -/

/-- The keywords with which a definition begins. -/
inductive DefinitionKeyword : Keyword → Prop where
  | function : DefinitionKeyword .function
  | void : DefinitionKeyword .void

/-- The rule `Def = ('function' | 'void') ID '(' ')' Block`. -/
inductive DefinitionText : List Token → Definition → Nat → List Token → Prop where
  | definition {ts rest : List Token} {k : Keyword} {name : String} {body : List Statement} {n : Nat}
      {p p₁ p₂ p₃ : Position} :
      DefinitionKeyword k → BlockText ts body n rest →
      DefinitionText
        (⟨.keyword k, p⟩ :: ⟨.word name, p₁⟩ :: ⟨.symbol .leftParen, p₂⟩ ::
          ⟨.symbol .rightParen, p₃⟩ :: ts)
        ⟨name, body, p₁⟩ n rest

/-- The rule `Program = (Def | Stmt)*`, up to the end of the tokens. -/
inductive ListingText : List Token → Listing → Nat → Prop where
  | nil : ListingText [] ⟨[], []⟩ 0
  | definition {ts mid : List Token} {d : Definition} {later : Listing} {n m : Nat} :
      DefinitionText ts d n mid → ListingText mid later m →
      ListingText ts ⟨d :: later.definitions, later.loose⟩ (max n m)
  | statement {ts mid : List Token} {s : Option Statement} {later : Listing} {n m : Nat} :
      StatementText ts s n mid → ListingText mid later m →
      ListingText ts ⟨later.definitions, s.toList ++ later.loose⟩ (max n m)

/-! ### The conditions of a text -/

mutual

/-- The conditions of a statement, those of the statements inside of it included. -/
def Statement.conditions : Statement → List Condition
  | .call _ => []
  | .ifElse c t e _ => c :: (bodyConditions t ++ bodyConditions e)
  | .whileLoop c body _ => c :: bodyConditions body
  | .doWhile body c _ => c :: bodyConditions body
  | .repeatLoop _ body _ => bodyConditions body

/-- The conditions of some statements, in the order of the text but for those below a `do`. -/
def bodyConditions : List Statement → List Condition
  | [] => []
  | s :: rest => s.conditions ++ bodyConditions rest

end

/-- The conditions of a whole text. -/
def Listing.conditions (l : Listing) : List Condition :=
  l.definitions.flatMap (fun d => bodyConditions d.body) ++ bodyConditions l.loose

theorem bodyConditions_append (body others : List Statement) :
    bodyConditions (body ++ others) = bodyConditions body ++ bodyConditions others := by
  induction body with
  | nil => rfl
  | cons s rest ih => simp [bodyConditions, ih]

/-- No condition of some statements is higher than a limit. -/
def Low (limit : Nat) (body : List Statement) : Prop :=
  ∀ c ∈ bodyConditions body, c.height ≤ limit

section Low

variable {limit n line : Nat} {body others t e : List Statement} {c : Condition}

@[simp] theorem low_nil : Low limit [] := by
  simp [Low, bodyConditions]

@[simp] theorem low_append : Low limit (body ++ others) ↔ Low limit body ∧ Low limit others := by
  simp [Low, bodyConditions_append, or_imp, forall_and]

@[simp] theorem low_call {call : Call} : Low limit [.call call] := by
  simp [Low, bodyConditions, Statement.conditions]

@[simp] theorem low_ifElse :
    Low limit [.ifElse c t e line] ↔ c.height ≤ limit ∧ Low limit t ∧ Low limit e := by
  simp [Low, bodyConditions, Statement.conditions, or_imp, forall_and]

@[simp] theorem low_whileLoop :
    Low limit [.whileLoop c body line] ↔ c.height ≤ limit ∧ Low limit body := by
  simp [Low, bodyConditions, Statement.conditions]

@[simp] theorem low_doWhile :
    Low limit [.doWhile body c line] ↔ c.height ≤ limit ∧ Low limit body := by
  simp [Low, bodyConditions, Statement.conditions]

@[simp] theorem low_repeatLoop : Low limit [.repeatLoop n body line] ↔ Low limit body := by
  simp [Low, bodyConditions, Statement.conditions]

end Low

section Listing

variable {P : Condition → Prop} {d : Definition} {s : Option Statement} {later : Listing}

theorem forall_conditions_definition :
    (∀ c ∈ (Listing.mk (d :: later.definitions) later.loose).conditions, P c) ↔
      (∀ c ∈ bodyConditions d.body, P c) ∧ ∀ c ∈ later.conditions, P c := by
  simp [Listing.conditions, or_imp, forall_and]

theorem forall_conditions_statement :
    (∀ c ∈ (Listing.mk later.definitions (s.toList ++ later.loose)).conditions, P c) ↔
      (∀ c ∈ bodyConditions s.toList, P c) ∧ ∀ c ∈ later.conditions, P c := by
  simp only [Listing.conditions, bodyConditions_append, List.mem_append, or_imp, forall_and]
  constructor
  · rintro ⟨hdefs, hfirst, hloose⟩
    exact ⟨hfirst, hdefs, hloose⟩
  · rintro ⟨hfirst, hdefs, hloose⟩
    exact ⟨hdefs, hfirst, hloose⟩

end Listing

/-! ### What a derivation leaves is the end of its tokens -/

section Suffix

variable {t : Token} {ts mid rest : List Token} {n : Nat}

theorem suffix_cons_of_suffix (h : rest <:+ ts) : rest <:+ t :: ts :=
  h.trans (List.suffix_cons t ts)

theorem suffix_of_cons_suffix (h : t :: rest <:+ ts) : rest <:+ ts :=
  (List.suffix_cons t rest).trans h

theorem ArgumentRow.suffix {arguments : List Token} (h : ArgumentRow ts arguments rest) :
    rest <:+ ts := by
  induction h with
  | one _ => exact List.suffix_cons _ _
  | more _ _ ih => exact suffix_cons_of_suffix (suffix_cons_of_suffix ih)

theorem ArgumentsText.suffix {arguments : List Token} (h : ArgumentsText ts arguments rest) :
    rest <:+ ts := by
  cases h with
  | none => exact List.suffix_rfl
  | row hrow => exact hrow.suffix

theorem CallText.suffix {c : Call} (h : CallText ts c rest) : rest <:+ ts := by
  obtain ⟨hargs⟩ := h
  exact suffix_cons_of_suffix (suffix_cons_of_suffix (suffix_of_cons_suffix hargs.suffix))

mutual

theorem OrText.suffix {ts rest : List Token} {c : Condition} {n : Nat} (h : OrText ts c n rest) :
    rest <:+ ts := by
  match h with
  | .one hand => exact hand.suffix
  | .more hleft hright => exact hright.suffix.trans (suffix_of_cons_suffix hleft.suffix)
termination_by structural h

theorem AndText.suffix {ts rest : List Token} {c : Condition} {n : Nat} (h : AndText ts c n rest) :
    rest <:+ ts := by
  match h with
  | .one hunary => exact hunary.suffix
  | .more hleft hright => exact hright.suffix.trans (suffix_of_cons_suffix hleft.suffix)
termination_by structural h

theorem UnaryText.suffix {ts rest : List Token} {c : Condition} {n : Nat}
    (h : UnaryText ts c n rest) : rest <:+ ts := by
  match h with
  | .bang hoperand => exact suffix_cons_of_suffix hoperand.suffix
  | .group hinner => exact suffix_cons_of_suffix (suffix_of_cons_suffix hinner.suffix)
  | .call hcall => exact hcall.suffix
termination_by structural h

end

theorem ConditionText.suffix {c : Condition} (h : ConditionText ts c n rest) : rest <:+ ts := by
  obtain ⟨hinner⟩ := h
  exact suffix_cons_of_suffix (suffix_of_cons_suffix hinner.suffix)

mutual

theorem BlockText.suffix {ts rest : List Token} {body : List Statement} {n : Nat}
    (h : BlockText ts body n rest) : rest <:+ ts := by
  match h with
  | .braces hrow => exact suffix_cons_of_suffix (suffix_of_cons_suffix hrow.suffix)
termination_by structural h

theorem RowText.suffix {ts rest : List Token} {body : List Statement} {n : Nat}
    (h : RowText ts body n rest) : rest <:+ ts := by
  match h with
  | .nil => exact List.suffix_rfl
  | .cons hfirst hothers => exact hothers.suffix.trans hfirst.suffix
termination_by structural h

theorem StatementText.suffix {ts rest : List Token} {s : Option Statement} {n : Nat}
    (h : StatementText ts s n rest) : rest <:+ ts := by
  match h with
  | .empty => exact List.suffix_cons _ _
  | .call hcall => exact suffix_of_cons_suffix hcall.suffix
  | .ifElse hif => exact hif.suffix
  | .whileLoop hcond hblock => exact suffix_cons_of_suffix (hblock.suffix.trans hcond.suffix)
  | .doWhile hblock hcond =>
    have hmid := suffix_of_cons_suffix hblock.suffix
    exact suffix_cons_of_suffix ((suffix_of_cons_suffix hcond.suffix).trans hmid)
  | .repeatLoop hblock =>
    exact suffix_cons_of_suffix (suffix_cons_of_suffix (suffix_cons_of_suffix
      (suffix_cons_of_suffix hblock.suffix)))
termination_by structural h

theorem IfText.suffix {ts rest : List Token} {s : Statement} {n : Nat}
    (h : IfText ts s n rest) : rest <:+ ts := by
  match h with
  | .branches hcond hblock helse =>
    exact suffix_cons_of_suffix ((helse.suffix.trans hblock.suffix).trans hcond.suffix)
termination_by structural h

theorem ElseText.suffix {ts rest : List Token} {body : List Statement} {n : Nat}
    (h : ElseText ts body n rest) : rest <:+ ts := by
  match h with
  | .nothing => exact List.suffix_rfl
  | .block hblock => exact suffix_cons_of_suffix hblock.suffix
  | .chain hif => exact suffix_cons_of_suffix hif.suffix
termination_by structural h

end

theorem DefinitionText.suffix {d : Definition} (h : DefinitionText ts d n rest) :
    rest <:+ ts := by
  obtain ⟨_, hblock⟩ := h
  exact suffix_cons_of_suffix (suffix_cons_of_suffix (suffix_cons_of_suffix
    (suffix_cons_of_suffix hblock.suffix)))

end Suffix

/-- The numbers among some tokens are short enough to be read. -/
def ShortNumbers (ts : List Token) : Prop :=
  ∀ digits p, ⟨.number digits, p⟩ ∈ ts → digits.toList.length ≤ Text.maxDigits

theorem ShortNumbers.suffix {ts rest : List Token} (h : ShortNumbers ts) (hrest : rest <:+ ts) :
    ShortNumbers rest := fun digits p hmem => h digits p (hrest.subset hmem)

theorem ShortNumbers.tail {t : Token} {ts : List Token} (h : ShortNumbers (t :: ts)) :
    ShortNumbers ts :=
  h.suffix (List.suffix_cons t ts)

theorem ShortNumbers.head {digits : String} {p : Position} {ts : List Token}
    (h : ShortNumbers (⟨.number digits, p⟩ :: ts)) : digits.toList.length ≤ Text.maxDigits :=
  h digits p List.mem_cons_self

/-! ### How texts begin -/

/-- Does the first of some tokens say this? -/
def Begins (l : Lexeme) (ts : List Token) : Prop :=
  ∃ p mid, ts = ⟨l, p⟩ :: mid

@[simp] theorem begins_cons {l : Lexeme} {t : Token} {ts : List Token} :
    Begins l (t :: ts) ↔ t.lexeme = l := by
  constructor
  · rintro ⟨p, mid, h⟩
    cases h
    rfl
  · rintro rfl
    exact ⟨t.position, ts, rfl⟩

/-- The lexemes with which a statement begins. -/
inductive StatementStart : Lexeme → Prop where
  | semicolon : StatementStart (.symbol .semicolon)
  | word {name : String} : StatementStart (.word name)
  | ifWord : StatementStart (.keyword .ifWord)
  | whileWord : StatementStart (.keyword .whileWord)
  | doWord : StatementStart (.keyword .doWord)
  | repeatWord : StatementStart (.keyword .repeatWord)

section Begins

variable {ts rest : List Token} {n : Nat} {l : Lexeme}

theorem StatementText.head {s : Option Statement} (h : StatementText ts s n rest) :
    ∃ t mid, ts = t :: mid ∧ StatementStart t.lexeme := by
  cases h with
  | empty => exact ⟨_, _, rfl, .semicolon⟩
  | call hcall =>
    obtain ⟨_⟩ := hcall
    exact ⟨_, _, rfl, .word⟩
  | ifElse hif =>
    obtain ⟨_, _, _⟩ := hif
    exact ⟨_, _, rfl, .ifWord⟩
  | whileLoop _ _ => exact ⟨_, _, rfl, .whileWord⟩
  | doWhile _ _ => exact ⟨_, _, rfl, .doWord⟩
  | repeatLoop _ => exact ⟨_, _, rfl, .repeatWord⟩

theorem StatementText.not_begins {s : Option Statement} (h : StatementText ts s n rest)
    (hl : ¬ StatementStart l) : ¬ Begins l ts := by
  obtain ⟨t, mid, rfl, hstart⟩ := h.head
  rw [begins_cons]
  rintro rfl
  exact hl hstart

theorem StatementText.not_begins_definition {s : Option Statement} {k : Keyword}
    (h : StatementText ts s n rest) (hk : DefinitionKeyword k) : ¬ Begins (.keyword k) ts := by
  cases hk with
  | function => exact h.not_begins nofun
  | void => exact h.not_begins nofun

/-- A row of statements begins with a statement, or with what is left. -/
theorem RowText.not_begins {body : List Statement} (h : RowText ts body n rest)
    (hl : ¬ StatementStart l) (hrest : ¬ Begins l rest) : ¬ Begins l ts := by
  cases h with
  | nil => exact hrest
  | cons hfirst _ => exact hfirst.not_begins hl

theorem ListingText.not_begins {listing : Listing} (h : ListingText ts listing n)
    (hl : ¬ StatementStart l) (hdef : ∀ k, DefinitionKeyword k → l ≠ .keyword k) :
    ¬ Begins l ts := by
  cases h with
  | nil => simp [Begins]
  | definition hfirst _ =>
    obtain ⟨hk, _⟩ := hfirst
    rw [begins_cons]
    exact fun heq => hdef _ hk heq.symm
  | statement hfirst _ => exact hfirst.not_begins hl

end Begins

end GridRobot.Source
