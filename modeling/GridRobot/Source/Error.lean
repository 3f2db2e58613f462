import GridRobot.Source.Token
import GridRobot.Text.Quoted

/-!
# Compile errors

Everything that can be wrong with a program text, and what is said about it.

## Main definitions

* `Cause` is what is wrong, and `Cause.kind` the kind of error it is.
* `Cause.reason` says it in words.
* `CompileError` is a cause with its place in the text, and `CompileError.message` the full message.
-/

namespace GridRobot.Source

/-- Kinds of compile errors. -/
inductive ErrorKind where
  | syntaxError
  | unknownIdentifier
  | arityMismatch
  | missingEntryProcedure
  deriving Repr, DecidableEq

namespace ErrorKind

/-- All kinds of compile errors. -/
def all : List ErrorKind :=
  [syntaxError, unknownIdentifier, arityMismatch, missingEntryProcedure]

/-- Name of a kind of compile error. -/
def name : ErrorKind → String
  | syntaxError => "SyntaxError"
  | unknownIdentifier => "UnknownIdentifier"
  | arityMismatch => "ArityMismatch"
  | missingEntryProcedure => "MissingEntryProcedure"

end ErrorKind

/-- What the grammar asks for at a place. -/
inductive Wanted where
  /-- A word that is not a keyword. -/
  | word
  /-- One particular lexeme. -/
  | lexeme (l : Lexeme)
  deriving Repr, DecidableEq

/-- What is wrong with a program text. In a `found` field, `none` is the end of the text. -/
inductive Cause where
  | unexpectedCharacter (c : Char)
  | unterminatedComment
  | expected (wanted : Wanted) (found : Option Lexeme)
  | expectedStatement (found : Option Lexeme)
  | expectedCondition (found : Option Lexeme)
  | badArgument (found : Option Lexeme)
  | missingBrace
  | nestingTooDeep (limit : Nat)
  | nestedProcedure
  | procedureParameters (name : String)
  | repeatArguments (given : Nat)
  | repeatCount
  | predicateRedefined (name : String)
  | procedureRedefined (name : String)
  | statementsBesideMain
  | missingEntry
  | conditionAsStatement (name : String)
  | unknownProcedure (name : String)
  | notACondition (name : String)
  | unknownCondition (name : String)
  | argumentsGiven (name : String) (given : Nat)
  deriving Repr, DecidableEq

/-- A found lexeme in quotes, or the words for the end of the text. -/
def describeFound : Option Lexeme → String
  | none => "end of program"
  | some l => Text.quote l.text

/-- A wanted lexeme in quotes, or the word for any identifier. -/
def Wanted.describe : Wanted → String
  | .word => "id"
  | .lexeme l => Text.quote l.text

namespace Cause

/-- The kind of error that a cause is. -/
def kind : Cause → ErrorKind
  | procedureParameters _ => .arityMismatch
  | repeatArguments _ => .arityMismatch
  | argumentsGiven _ _ => .arityMismatch
  | unknownProcedure _ => .unknownIdentifier
  | unknownCondition _ => .unknownIdentifier
  | missingEntry => .missingEntryProcedure
  | _ => .syntaxError

/-- The cause in words. -/
def reason : Cause → String
  | unexpectedCharacter c => "unexpected character " ++ Text.quote (String.singleton c)
  | unterminatedComment => "unterminated comment"
  | expected wanted found => "expected " ++ wanted.describe ++ ", got " ++ describeFound found
  | expectedStatement found => "expected a statement, got " ++ describeFound found
  | expectedCondition found => "expected a condition, got " ++ describeFound found
  | badArgument found =>
    "unexpected " ++ Text.quote ((found.map Lexeme.text).getD "end of program") ++
      " in argument list"
  | missingBrace => "missing '\x7d'"
  | nestingTooDeep limit => "nesting too deep (more than " ++ toString limit ++ " levels)"
  | nestedProcedure => "procedures can only be defined at the top level"
  | procedureParameters name => "procedure '" ++ name ++ "' cannot take parameters"
  | repeatArguments given =>
    "repeat takes exactly 1 argument (" ++ toString given ++ " given)"
  | repeatCount => "repeat count must be a whole number"
  | predicateRedefined name =>
    "'" ++ name ++ "' is a built-in condition and cannot be redefined"
  | procedureRedefined name => "procedure '" ++ name ++ "' is defined more than once"
  | statementsBesideMain => "statements outside a procedure cannot be combined with main()"
  | missingEntry => "define a main() procedure or write statements at the top level"
  | conditionAsStatement name => "'" ++ name ++ "' is a condition; use it inside if/while"
  | unknownProcedure name => "unknown procedure '" ++ name ++ "'"
  | notACondition name =>
    "'" ++ name ++ "' does not answer a question and cannot be a condition"
  | unknownCondition name => "unknown condition '" ++ name ++ "'"
  | argumentsGiven name given =>
    "'" ++ name ++ "' takes no arguments (" ++ toString given ++ " given)"

end Cause

/-- How exactly the place of an error in the text is known. -/
inductive Place where
  | nowhere
  | line (n : Nat)
  | position (p : Position)
  deriving Repr, DecidableEq

namespace Place

/-- The line of a place, if it has one. -/
def line? : Place → Option Nat
  | nowhere => none
  | line n => some n
  | position p => some p.line

/-- The column of a place, if it has one. -/
def column? : Place → Option Nat
  | nowhere => none
  | line _ => none
  | position p => some p.column

end Place

/-- A cause and its place in the text. -/
structure CompileError where
  cause : Cause
  place : Place
  deriving Repr, DecidableEq

/-- Message of a kind of error with a reason; a line is told with its column, known or not. -/
def placedMessage (kind : ErrorKind) (reason : String) (line column : Option Int) : String :=
  match line with
  | none => kind.name ++ ": " ++ reason
  | some l =>
    kind.name ++ " at line " ++ toString l ++ ", column " ++
      (match column with
        | none => "None"
        | some c => toString c) ++ ": " ++ reason

namespace CompileError

/-- An error at a position. -/
def located (p : Position) (cause : Cause) : CompileError :=
  ⟨cause, .position p⟩

/-- The full message of an error. -/
def message (e : CompileError) : String :=
  placedMessage e.cause.kind e.cause.reason (e.place.line?.map Int.ofNat)
    (e.place.column?.map Int.ofNat)

end CompileError

end GridRobot.Source
