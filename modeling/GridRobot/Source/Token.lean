/-!
# Tokens of program text

Program text is made of words, keywords, whole numbers and symbols.

## Main definitions

* `Position` is a place in a text, by line and column.
* `Lexeme` is what a token says, and `Token` a lexeme with the position at which it begins.
* `Lexeme.text` gives a lexeme back as it stands in the text.
-/

namespace GridRobot.Source

/-- A place in a text; lines and columns are counted from one. -/
structure Position where
  line : Nat
  column : Nat
  deriving Repr, DecidableEq

namespace Position

/-- The first place of a text. -/
def start : Position :=
  ⟨1, 1⟩

/-- The place after a character. -/
def next (p : Position) (c : Char) : Position :=
  if c = '\n' then ⟨p.line + 1, 1⟩ else ⟨p.line, p.column + 1⟩

/-- The place after some characters. -/
def after (p : Position) (cs : List Char) : Position :=
  cs.foldl next p

@[simp] theorem after_nil (p : Position) : p.after [] = p := rfl

@[simp] theorem after_append (p : Position) (cs ds : List Char) :
    p.after (cs ++ ds) = (p.after cs).after ds := by
  simp [after]

end Position

/-- Words with a fixed meaning. -/
inductive Keyword where
  | function
  | void
  | ifWord
  | elseWord
  | whileWord
  | doWord
  | repeatWord
  deriving Repr, DecidableEq

namespace Keyword

/-- All keywords. -/
def all : List Keyword :=
  [function, void, ifWord, elseWord, whileWord, doWord, repeatWord]

/-- A keyword as it is written. -/
def text : Keyword → String
  | function => "function"
  | void => "void"
  | ifWord => "if"
  | elseWord => "else"
  | whileWord => "while"
  | doWord => "do"
  | repeatWord => "repeat"

/-- The keyword that a word is. -/
def ofText? (word : String) : Option Keyword :=
  all.find? fun k => k.text == word

end Keyword

/-- Operators and punctuation. -/
inductive Symbol where
  | both
  | either
  | bang
  | leftParen
  | rightParen
  | leftBrace
  | rightBrace
  | semicolon
  | comma
  deriving Repr, DecidableEq

/-- A symbol as it is written. -/
def Symbol.text : Symbol → String
  | .both => "&&"
  | .either => "||"
  | .bang => "!"
  | .leftParen => "("
  | .rightParen => ")"
  | .leftBrace => "\x7b"
  | .rightBrace => "\x7d"
  | .semicolon => ";"
  | .comma => ","

/-- What a token says. -/
inductive Lexeme where
  | word (name : String)
  | keyword (k : Keyword)
  | number (digits : String)
  | symbol (s : Symbol)
  deriving Repr, DecidableEq

/-- A lexeme as it is written. -/
def Lexeme.text : Lexeme → String
  | .word name => name
  | .keyword k => k.text
  | .number digits => digits
  | .symbol s => s.text

/-- A lexeme and the place where it begins. -/
structure Token where
  lexeme : Lexeme
  position : Position
  deriving Repr, DecidableEq

end GridRobot.Source
