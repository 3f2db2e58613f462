import GridRobot.Source.Parser

/-!
# Reading a text with a cursor

A text may also be read with a cursor that is moved over its tokens, and with a counter of the
levels that are open. Nothing about a walk over the tokens says that it comes to an end, that the
cursor stays inside the text, or that a level is closed as often as it is opened. So each walk is
told how deep its calls may be nested, and one that would go deeper has no outcome; and one that
leaves the text has an outcome of its own.

## Main definitions

* `Cursor` is the state of a walk, and `Halt` tells why it broke off.
* `Walk` is a computation with a cursor that need not have an outcome.
* `Walk.parseOr`, `Walk.parseBlock`, `Walk.parseStatement` and `Walk.parseDefinition` read one tree
  each, and `Walk.parseListing` reads a whole text.

## Design notes

A loop is a walk that calls itself for the next turn. The calls of a walk are given one less than
it may nest itself, so a walk has no outcome with any number if it does not come to an end.
-/

namespace GridRobot.Source

/-- State of a walk over the tokens of a text. The end of the text is a place for the cursor as
well, behind the last token. -/
structure Cursor where
  index : Nat
  /-- Number of levels that are open. -/
  depth : Nat
  deriving Repr, DecidableEq

/-- Why a walk breaks off. -/
inductive Halt where
  /-- No tree can be read. -/
  | failed (f : Failure)
  /-- The cursor was to be moved beyond the end of the text. -/
  | movedOut
  /-- A token was to be read where there is none. -/
  | readOut
  deriving Repr, DecidableEq

/-- A computation with a cursor; it has no outcome if its calls nest too deep. -/
abbrev Walk (α : Type) : Type :=
  StateT Cursor (ExceptT Halt Option) α

namespace Walk

variable {α : Type} (limit : Nat) (text : TokenList)

/-- A call that would be nested too deep. -/
def exhausted : Walk α :=
  fun _ => (none : Option (Except Halt (α × Cursor)))

/-! ### Single tokens and levels -/

/-- The token at the cursor; there is none at the end of the text. -/
def look : Walk (Option Token) := do
  let c ← get
  if c.index ≤ text.tokens.length then return text.tokens[c.index]? else throw .readOut

/-- Moves the cursor over a token. -/
def advance : Walk PUnit := do
  let c ← get
  if c.index < text.tokens.length then set { c with index := c.index + 1 } else throw .movedOut

/-- Fails with a cause at the cursor. -/
def failHere (cause : Option Lexeme → Cause) : Walk α := do
  match ← look text with
  | none => throw (.failed (.error (.located text.finish (cause none))))
  | some t => throw (.failed (.error (.located t.position (cause (some t.lexeme)))))

/-- Fails with a cause at a token. -/
def failAt (t : Token) (cause : Cause) : Walk α :=
  throw (.failed (.error (.located t.position cause)))

/-- Moves over one particular lexeme if it is at the cursor. -/
def take? (l : Lexeme) : Walk (Option Token) := do
  match ← look text with
  | none => return none
  | some t =>
    if t.lexeme = l then do
      advance text
      return some t
    else return none

/-- Reads one particular lexeme. -/
def expectLexeme (l : Lexeme) : Walk Token := do
  match ← take? text l with
  | some t => return t
  | none => failHere text fun found => .expected (.lexeme l) found

/-- Reads a name. -/
def expectName : Walk (String × Position) := do
  match ← look text with
  | some ⟨.word name, p⟩ => do
    advance text
    return (name, p)
  | _ => failHere text fun found => .expected .word found

/-- Checks a number of levels; an excess is reported at a token. -/
def checkLevels (levels : Nat) (t : Token) : Walk PUnit :=
  if levels ≤ limit then return ⟨⟩ else failAt t (.nestingTooDeep limit)

/-- Opens a level at a token. -/
def enter (t : Token) : Walk PUnit := do
  modify fun c => { c with depth := c.depth + 1 }
  checkLevels limit (← get).depth t

/-- Closes a level. -/
def leave : Walk PUnit :=
  modify fun c => { c with depth := c.depth - 1 }

/-! ### Calls -/

/-- Reads one argument: a number or a name. -/
def parseArgument : Walk Token := do
  match ← look text with
  | some ⟨.word name, p⟩ => do
    advance text
    return ⟨.word name, p⟩
  | some ⟨.number digits, p⟩ => do
    advance text
    return ⟨.number digits, p⟩
  | _ => failHere text .badArgument

/-- Reads the arguments from the first one on, up to the closing parenthesis. -/
def parseMoreArguments : Nat → Walk (List Token)
  | 0 => exhausted
  | fuel + 1 => do
    let first ← parseArgument text
    match ← take? text (.symbol .rightParen) with
    | some _ => return [first]
    | none => do
      let _ ← expectLexeme text (.symbol .comma)
      return first :: (← parseMoreArguments fuel)

/-- Reads the remainder of an argument list after its opening parenthesis. -/
def parseArguments (fuel : Nat) : Walk (List Token) := do
  match ← take? text (.symbol .rightParen) with
  | some _ => return []
  | none => parseMoreArguments text fuel

/-- Reads a call. -/
def parseCall (fuel : Nat) : Walk Call := do
  let (name, position) ← expectName text
  let _ ← expectLexeme text (.symbol .leftParen)
  let arguments ← parseArguments text fuel
  return ⟨name, arguments.length, position⟩

/-! ### Conditions -/

/-- The condition of a connective at a token, if it is not too high. -/
def connect (op : Connective) (left right : Condition) (t : Token) : Walk Condition := do
  let c := Condition.binary op left right t.position.line
  checkLevels limit c.height t
  return c

mutual

/-- Reads a condition. -/
def parseOr : Nat → Walk Condition
  | 0 => exhausted
  | fuel + 1 => do
    let left ← parseAnd fuel
    parseOrMore fuel left

/-- Reads on as long as there is a further `||`. -/
def parseOrMore : Nat → Condition → Walk Condition
  | 0, _ => exhausted
  | fuel + 1, left => do
    match ← take? text (.symbol .either) with
    | none => return left
    | some t => do
      let right ← parseAnd fuel
      let both ← connect limit .either left right t
      parseOrMore fuel both

/-- Reads a condition without an open `||`. -/
def parseAnd : Nat → Walk Condition
  | 0 => exhausted
  | fuel + 1 => do
    let left ← parseUnary fuel
    parseAndMore fuel left

/-- Reads on as long as there is a further `&&`. -/
def parseAndMore : Nat → Condition → Walk Condition
  | 0, _ => exhausted
  | fuel + 1, left => do
    match ← take? text (.symbol .both) with
    | none => return left
    | some t => do
      let right ← parseUnary fuel
      let both ← connect limit .both left right t
      parseAndMore fuel both

/-- Reads a condition without an open connective. -/
def parseUnary : Nat → Walk Condition
  | 0 => exhausted
  | fuel + 1 => do
    match ← look text with
    | none => failHere text .expectedCondition
    | some t =>
      match t.lexeme with
      | .symbol .bang => do
        advance text
        enter limit t
        let operand ← parseUnary fuel
        leave
        let c := Condition.not operand t.position.line
        checkLevels limit c.height t
        return c
      | .symbol .leftParen => do
        advance text
        enter limit t
        let inner ← parseOr fuel
        let _ ← expectLexeme text (.symbol .rightParen)
        leave
        return inner
      | .word _ => do
        let call ← parseCall text fuel
        return .call call
      | _ => failHere text .expectedCondition

end

/-- Reads a condition in parentheses. -/
def parseCondition (fuel : Nat) : Walk Condition := do
  let _ ← expectLexeme text (.symbol .leftParen)
  let c ← parseOr limit text fuel
  let _ ← expectLexeme text (.symbol .rightParen)
  return c

/-! ### Statements -/

/-- Reads the count of a `repeat` at a token, with its parentheses. -/
def parseCount (fuel : Nat) (t : Token) : Walk Nat := do
  let _ ← expectLexeme text (.symbol .leftParen)
  let arguments ← parseArguments text fuel
  match arguments with
  | [⟨.number digits, _⟩] =>
    match Text.readDigits digits.toList with
    | .ok count => return count
    | .error _ => throw (.failed .numberTooLong)
  | [argument] => failAt argument .repeatCount
  | _ => failAt t (.repeatArguments arguments.length)

mutual

/-- Reads a block. -/
def parseBlock : Nat → Walk (List Statement)
  | 0 => exhausted
  | fuel + 1 => do
    let brace ← expectLexeme text (.symbol .leftBrace)
    enter limit brace
    let body ← parseBody fuel
    leave
    return body

/-- Reads statements up to the closing brace. -/
def parseBody : Nat → Walk (List Statement)
  | 0 => exhausted
  | fuel + 1 => do
    match ← take? text (.symbol .rightBrace) with
    | some _ => return []
    | none =>
      match ← look text with
      | none => failHere text fun _ => .missingBrace
      | some _ => do
        let first ← parseStatement fuel
        return first.toList ++ (← parseBody fuel)

/-- Reads a statement; a lone semicolon is none. -/
def parseStatement : Nat → Walk (Option Statement)
  | 0 => exhausted
  | fuel + 1 => do
    match ← look text with
    | none => failHere text .expectedStatement
    | some t =>
      match t.lexeme with
      | .symbol .semicolon => do
        advance text
        return none
      | .keyword .ifWord => do
        advance text
        return some (← parseIf fuel t)
      | .keyword .whileWord => do
        advance text
        let c ← parseCondition limit text fuel
        let body ← parseBlock fuel
        return some (.whileLoop c body t.position.line)
      | .keyword .doWord => do
        advance text
        let body ← parseBlock fuel
        let _ ← expectLexeme text (.keyword .whileWord)
        let c ← parseCondition limit text fuel
        let _ ← expectLexeme text (.symbol .semicolon)
        return some (.doWhile body c t.position.line)
      | .keyword .repeatWord => do
        advance text
        return some (← parseRepeat fuel t)
      | .keyword .function => failAt t .nestedProcedure
      | .keyword .void => failAt t .nestedProcedure
      | .word _ => do
        let call ← parseCall text fuel
        let _ ← expectLexeme text (.symbol .semicolon)
        return some (.call call)
      | _ => failHere text .expectedStatement

/-- Reads the remainder of a `repeat` that stands at a token. -/
def parseRepeat : Nat → Token → Walk Statement
  | 0, _ => exhausted
  | fuel + 1, t => do
    let count ← parseCount text fuel t
    let body ← parseBlock fuel
    return .repeatLoop count body t.position.line

/-- Reads the remainder of an `if` that stands at a token. -/
def parseIf : Nat → Token → Walk Statement
  | 0, _ => exhausted
  | fuel + 1, t => do
    let c ← parseCondition limit text fuel
    let thenBody ← parseBlock fuel
    let elseBody ← parseElse fuel
    return .ifElse c thenBody elseBody t.position.line

/-- Reads the `else` part of an `if`, where there is one. -/
def parseElse : Nat → Walk (List Statement)
  | 0 => exhausted
  | fuel + 1 => do
    match ← take? text (.keyword .elseWord) with
    | none => return []
    | some _ =>
      match ← take? text (.keyword .ifWord) with
      | some again => do
        enter limit again
        let s ← parseIf fuel again
        leave
        return [s]
      | none => parseBlock fuel

end

/-! ### Whole texts -/

/-- Reads the remainder of a definition after its keyword. -/
def parseDefinition (fuel : Nat) : Walk Definition := do
  let (name, position) ← expectName text
  let _ ← expectLexeme text (.symbol .leftParen)
  let arguments ← parseArguments text fuel
  if arguments.isEmpty then do
    let body ← parseBlock limit text fuel
    return ⟨name, body, position⟩
  else throw (.failed (.error (.located position (.procedureParameters name))))

/-- Reads definitions and statements up to the end of the text. -/
def parseListing : Nat → Walk Listing
  | 0 => exhausted
  | fuel + 1 => do
    match ← look text with
    | none => return ⟨[], []⟩
    | some t =>
      if t.lexeme = .keyword .function ∨ t.lexeme = .keyword .void then do
        advance text
        let d ← parseDefinition limit text fuel
        let later ← parseListing fuel
        return ⟨d :: later.definitions, later.loose⟩
      else do
        let s ← parseStatement limit text fuel
        let later ← parseListing fuel
        return ⟨later.definitions, s.toList ++ later.loose⟩

end Walk

end GridRobot.Source
