import GridRobot.Reading
import GridRobot.Source.Tree
import GridRobot.Source.Lexer
import GridRobot.Text.Integer

/-!
# Reading trees out of tokens

The grammar of program text, read by recursive descent.

* A text is a row of definitions and statements.
* A definition is `function` or `void`, a name, `()` and a block. A block is a row of statements
  in braces.
* A statement is `;`, a call with `;`, `if (c) block` with an optional `else` followed by a block
  or another `if`, `while (c) block`, `do block while (c);` or `repeat (n) block`.
* A condition is built from calls with `!`, `&&`, `||` and parentheses; `&&` binds more strongly
  than `||`, and both group to the left.

## Main definitions

* `Bounds` is what stays fixed while a text is read: how deep it may nest, and where it ends.
* `parseOr`, `parseBlock`, `parseStatement` and `parseDefinition` read one tree each.
* `parse` reads a whole text.

## Design notes

Each reading function is given the number of levels that are open around it. A `Step` holds the
proof that its rest is shorter than the tokens it was read from, so every loop and every recursion
ends at the latest with the tokens. Blocks, further `if`s of a chain, `!` and parentheses open a
level; the height of a condition is limited by the same bound.

Any positive bound is taken, however deep a text may nest then. The stack of the interpreter is taken to
suffice for it: that a reading is given up for want of stack does not occur here.
-/

namespace GridRobot.Source

/-- Why no tree is read from a list of tokens. -/
inductive Failure where
  /-- The text is not in the grammar. -/
  | error (e : CompileError)
  /-- A repeat count has too many digits. -/
  | numberTooLong
  deriving Repr, DecidableEq

/-- What stays fixed while a text is read. -/
structure Bounds where
  /-- Greatest number of levels that may be open at a place. -/
  limit : Nat
  /-- Place after the last character of the text. -/
  finish : Position
  deriving Repr, DecidableEq

/-- Outcome of reading a tree from some tokens. -/
abbrev Reading (α : Type) (tokens : List Token) : Type :=
  Except Failure (Step α tokens)

/-- Failure with a cause at the first of some tokens, or at the end of the text. -/
def failHere {α : Type} (b : Bounds) (tokens : List Token) (cause : Option Lexeme → Cause) :
    Except Failure α :=
  match tokens with
  | [] => .error (.error (.located b.finish (cause none)))
  | t :: _ => .error (.error (.located t.position (cause (some t.lexeme))))

/-- Failure with a cause at a token. -/
def failAt {α : Type} (t : Token) (cause : Cause) : Except Failure α :=
  .error (.error (.located t.position cause))

/-- Reads one particular lexeme. -/
def expectLexeme (b : Bounds) (l : Lexeme) : (tokens : List Token) → Reading Token tokens
  | [] => failHere b [] fun found => .expected (.lexeme l) found
  | t :: rest =>
    if t.lexeme = l then .ok ⟨t, rest, by simp⟩
    else failHere b (t :: rest) fun found => .expected (.lexeme l) found

/-- Reads one particular symbol. -/
def expectSymbol (b : Bounds) (s : Symbol) (tokens : List Token) : Reading Token tokens :=
  expectLexeme b (.symbol s) tokens

/-- Reads a name. -/
def expectName (b : Bounds) : (tokens : List Token) → Reading (String × Position) tokens
  | ⟨.word name, p⟩ :: rest => .ok ⟨(name, p), rest, by simp⟩
  | tokens => failHere b tokens fun found => .expected .word found

/-- Checks that a number of levels is within the limit; an excess is reported at a token. -/
def checkLevels (b : Bounds) (levels : Nat) (t : Token) : Except Failure PUnit :=
  if levels ≤ b.limit then .ok ⟨⟩ else failAt t (.nestingTooDeep b.limit)

/-- Reads one argument: a number or a name. -/
def parseArgument (b : Bounds) : (tokens : List Token) → Reading Token tokens
  | ⟨.word name, p⟩ :: rest => .ok ⟨⟨.word name, p⟩, rest, by simp⟩
  | ⟨.number digits, p⟩ :: rest => .ok ⟨⟨.number digits, p⟩, rest, by simp⟩
  | tokens => failHere b tokens .badArgument

/-- Reads the arguments from the first one on, up to the closing parenthesis. -/
def parseMoreArguments (b : Bounds) (tokens : List Token) : Reading (List Token) tokens := do
  let ⟨first, rest, h⟩ ← parseArgument b tokens
  match rest, h with
  | ⟨.symbol .rightParen, _⟩ :: after, h => .ok ⟨[first], after, by simp at h; omega⟩
  | rest, h => do
    let ⟨_, after, h₁⟩ ← expectSymbol b .comma rest
    let ⟨others, beyond, h₂⟩ ← parseMoreArguments b after
    .ok ⟨first :: others, beyond, by omega⟩
termination_by tokens.length
decreasing_by omega

/-- Reads the remainder of an argument list after its opening parenthesis. -/
def parseArguments (b : Bounds) (tokens : List Token) : Reading (List Token) tokens :=
  match tokens with
  | ⟨.symbol .rightParen, _⟩ :: rest => .ok ⟨[], rest, by simp⟩
  | tokens => parseMoreArguments b tokens

/-- Reads a call. -/
def parseCall (b : Bounds) (tokens : List Token) : Reading Call tokens := do
  let ⟨(name, position), rest, h⟩ ← expectName b tokens
  let ⟨_, after, h₁⟩ ← expectSymbol b .leftParen rest
  let ⟨arguments, beyond, h₂⟩ ← parseArguments b after
  .ok ⟨⟨name, arguments.length, position⟩, beyond, by omega⟩

/-- The condition of a connective at a token, if it is not too high. -/
def connect (b : Bounds) (op : Connective) (left right : Condition) (t : Token) :
    Except Failure Condition := do
  let c := Condition.binary op left right t.position.line
  checkLevels b c.height t
  .ok c

mutual

/-- Reads a condition. -/
def parseOr (b : Bounds) (depth : Nat) (tokens : List Token) : Reading Condition tokens := do
  let ⟨left, rest, h⟩ ← parseAnd b depth tokens
  let ⟨c, after, h₁⟩ ← parseOrMore b depth left rest
  .ok ⟨c, after, by omega⟩
termination_by (tokens.length, 3)

/-- Reads the further parts of a condition with `||`. -/
def parseOrMore (b : Bounds) (depth : Nat) (left : Condition) (tokens : List Token) :
    Except Failure (Pause Condition tokens) :=
  match tokens with
  | [] => .ok ⟨left, [], by simp⟩
  | t :: rest =>
    if t.lexeme = .symbol .either then do
      let ⟨right, after, h⟩ ← parseAnd b depth rest
      let both ← connect b .either left right t
      let ⟨c, beyond, h₁⟩ ← parseOrMore b depth both after
      .ok ⟨c, beyond, by simp; omega⟩
    else .ok ⟨left, t :: rest, by simp⟩
termination_by (tokens.length, 0)

/-- Reads a condition without an open `||`. -/
def parseAnd (b : Bounds) (depth : Nat) (tokens : List Token) : Reading Condition tokens := do
  let ⟨left, rest, h⟩ ← parseUnary b depth tokens
  let ⟨c, after, h₁⟩ ← parseAndMore b depth left rest
  .ok ⟨c, after, by omega⟩
termination_by (tokens.length, 2)

/-- Reads the further parts of a condition with `&&`. -/
def parseAndMore (b : Bounds) (depth : Nat) (left : Condition) (tokens : List Token) :
    Except Failure (Pause Condition tokens) :=
  match tokens with
  | [] => .ok ⟨left, [], by simp⟩
  | t :: rest =>
    if t.lexeme = .symbol .both then do
      let ⟨right, after, h⟩ ← parseUnary b depth rest
      let both ← connect b .both left right t
      let ⟨c, beyond, h₁⟩ ← parseAndMore b depth both after
      .ok ⟨c, beyond, by simp; omega⟩
    else .ok ⟨left, t :: rest, by simp⟩
termination_by (tokens.length, 0)

/-- Reads a condition without an open connective. -/
def parseUnary (b : Bounds) (depth : Nat) (tokens : List Token) : Reading Condition tokens :=
  match tokens with
  | [] => failHere b [] .expectedCondition
  | t :: rest =>
    match t.lexeme with
    | .symbol .bang => do
      checkLevels b (depth + 1) t
      let ⟨operand, after, h⟩ ← parseUnary b (depth + 1) rest
      -- a second measure: how high the condition itself has become
      let c := Condition.not operand t.position.line
      checkLevels b c.height t
      .ok ⟨c, after, by simp; omega⟩
    | .symbol .leftParen => do
      checkLevels b (depth + 1) t
      let ⟨inner, after, h⟩ ← parseOr b (depth + 1) rest
      let ⟨_, beyond, h₁⟩ ← expectSymbol b .rightParen after
      .ok ⟨inner, beyond, by simp; omega⟩
    | .word _ => do
      let ⟨call, after, h⟩ ← parseCall b (t :: rest)
      .ok ⟨.call call, after, h⟩
    | _ => failHere b (t :: rest) .expectedCondition
termination_by (tokens.length, 1)

end

/-- Reads a condition in parentheses. -/
def parseCondition (b : Bounds) (depth : Nat) (tokens : List Token) :
    Reading Condition tokens := do
  let ⟨_, rest, h⟩ ← expectSymbol b .leftParen tokens
  let ⟨c, after, h₁⟩ ← parseOr b depth rest
  let ⟨_, beyond, h₂⟩ ← expectSymbol b .rightParen after
  .ok ⟨c, beyond, by omega⟩

/-- Reads the count of a `repeat` at a token, with its parentheses. -/
def parseCount (b : Bounds) (t : Token) (tokens : List Token) : Reading Nat tokens := do
  let ⟨_, rest, h⟩ ← expectSymbol b .leftParen tokens
  let ⟨arguments, after, h₁⟩ ← parseArguments b rest
  match arguments with
  | [⟨.number digits, _⟩] =>
    match Text.readDigits digits.toList with
    | .ok count => .ok ⟨count, after, by omega⟩
    | .error _ => .error .numberTooLong
  | [argument] => failAt argument .repeatCount
  | _ => failAt t (.repeatArguments arguments.length)

mutual

/-- Reads a block. -/
def parseBlock (b : Bounds) (depth : Nat) (tokens : List Token) :
    Reading (List Statement) tokens := do
  let ⟨brace, rest, h⟩ ← expectSymbol b .leftBrace tokens
  checkLevels b (depth + 1) brace
  let ⟨body, after, h₁⟩ ← parseBody b (depth + 1) rest
  .ok ⟨body, after, by omega⟩
termination_by (tokens.length, 0)

/-- Reads statements up to the closing brace. -/
def parseBody (b : Bounds) (depth : Nat) (tokens : List Token) :
    Reading (List Statement) tokens :=
  match tokens with
  | [] => failHere b [] fun _ => .missingBrace
  | t :: rest =>
    if t.lexeme = .symbol .rightBrace then .ok ⟨[], rest, by simp⟩
    else do
      let ⟨first, after, h⟩ ← parseStatement b depth (t :: rest)
      let ⟨others, beyond, h₁⟩ ← parseBody b depth after
      .ok ⟨first.toList ++ others, beyond, by omega⟩
termination_by (tokens.length, 1)

/-- Reads a statement; a lone semicolon is none. -/
def parseStatement (b : Bounds) (depth : Nat) (tokens : List Token) :
    Reading (Option Statement) tokens :=
  match tokens with
  | [] => failHere b [] .expectedStatement
  | t :: rest =>
    match t.lexeme with
    | .symbol .semicolon => .ok ⟨none, rest, by simp⟩
    | .keyword .ifWord => do
      let ⟨s, after, h⟩ ← parseIf b depth t rest
      .ok ⟨some s, after, by simp; omega⟩
    | .keyword .whileWord => do
      let ⟨c, after, h⟩ ← parseCondition b depth rest
      let ⟨body, beyond, h₁⟩ ← parseBlock b depth after
      .ok ⟨some (.whileLoop c body t.position.line), beyond, by simp; omega⟩
    | .keyword .doWord => do
      let ⟨body, after, h⟩ ← parseBlock b depth rest
      let ⟨_, after₁, h₁⟩ ← expectLexeme b (.keyword .whileWord) after
      let ⟨c, after₂, h₂⟩ ← parseCondition b depth after₁
      let ⟨_, beyond, h₃⟩ ← expectSymbol b .semicolon after₂
      .ok ⟨some (.doWhile body c t.position.line), beyond, by simp; omega⟩
    | .keyword .repeatWord => do
      let ⟨count, after, h⟩ ← parseCount b t rest
      let ⟨body, beyond, h₁⟩ ← parseBlock b depth after
      .ok ⟨some (.repeatLoop count body t.position.line), beyond, by simp; omega⟩
    | .keyword .function => failAt t .nestedProcedure
    | .keyword .void => failAt t .nestedProcedure
    | .word _ => do
      let ⟨call, after, h⟩ ← parseCall b (t :: rest)
      let ⟨_, beyond, h₁⟩ ← expectSymbol b .semicolon after
      .ok ⟨some (.call call), beyond, by omega⟩
    | _ => failHere b (t :: rest) .expectedStatement
termination_by (tokens.length, 0)

/-- Reads the remainder of an `if` that stands at a token. -/
def parseIf (b : Bounds) (depth : Nat) (t : Token) (tokens : List Token) :
    Reading Statement tokens := do
  let ⟨c, rest, h⟩ ← parseCondition b depth tokens
  let ⟨thenBody, after, h₁⟩ ← parseBlock b depth rest
  let ⟨elseBody, beyond, h₂⟩ ← parseElse b depth after
  .ok ⟨.ifElse c thenBody elseBody t.position.line, beyond, by omega⟩
termination_by (tokens.length, 0)

/-- Reads the `else` part of an `if`, where there is one. -/
def parseElse (b : Bounds) (depth : Nat) (tokens : List Token) :
    Except Failure (Pause (List Statement) tokens) :=
  match tokens with
  -- an `if` right after `else` opens a level of its own, though it has no braces
  | ⟨.keyword .elseWord, _⟩ :: ⟨.keyword .ifWord, p⟩ :: rest => do
    let again : Token := ⟨.keyword .ifWord, p⟩
    checkLevels b (depth + 1) again
    let ⟨s, after, h⟩ ← parseIf b (depth + 1) again rest
    .ok ⟨[s], after, by simp; omega⟩
  | ⟨.keyword .elseWord, _⟩ :: rest => do
    let ⟨body, after, h⟩ ← parseBlock b depth rest
    .ok ⟨body, after, by simp; omega⟩
  | tokens => .ok ⟨[], tokens, by simp⟩
termination_by (tokens.length, 0)

end

/-- Reads the remainder of a definition after its keyword. -/
def parseDefinition (b : Bounds) (tokens : List Token) : Reading Definition tokens := do
  let ⟨(name, position), rest, h⟩ ← expectName b tokens
  let ⟨_, after, h₁⟩ ← expectSymbol b .leftParen rest
  let ⟨arguments, after₁, h₂⟩ ← parseArguments b after
  if arguments.isEmpty then do
    let ⟨body, beyond, h₃⟩ ← parseBlock b 0 after₁
    .ok ⟨⟨name, body, position⟩, beyond, by omega⟩
  else .error (.error (.located position (.procedureParameters name)))

/-- Reads definitions and statements up to the end of the text. -/
def parseListing (b : Bounds) (tokens : List Token) : Except Failure Listing :=
  match tokens with
  | [] => .ok ⟨[], []⟩
  | t :: rest =>
    if t.lexeme = .keyword .function ∨ t.lexeme = .keyword .void then do
      let ⟨d, after, _h⟩ ← parseDefinition b rest
      let later ← parseListing b after
      .ok ⟨d :: later.definitions, later.loose⟩
    else do
      let ⟨s, after, _h⟩ ← parseStatement b 0 (t :: rest)
      let later ← parseListing b after
      .ok ⟨later.definitions, s.toList ++ later.loose⟩
termination_by tokens.length
decreasing_by all_goals simp_all <;> omega

/-- Reads a whole text in which at most `limit` levels may be open at a place. -/
def parse (limit : Nat) (text : TokenList) : Except Failure Listing :=
  parseListing ⟨limit, text.finish⟩ text.tokens

end GridRobot.Source
