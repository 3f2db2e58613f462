import GridRobot.Source.Error
import GridRobot.Text.Digit
import GridRobot.Text.Letter

/-!
# Cutting program text into tokens

A program text is a row of tokens with gaps between them. A gap is made of blanks, line ends and
comments. Tokens and comments are as long as possible, and a block comment ends at the first `*/`.

## Main definitions

* `readPiece` takes the first piece, a token or a part of a gap, off a text that is not empty.
* `TokenList` is a list of tokens together with the place where the text ends.
* `tokenize` cuts a whole text.

## Design notes

`readPiece` returns a `Piece`, which holds the proof that the characters taken and the rest make up
the text, so nothing can be lost and every piece makes progress. Positions are found by walking
over the characters taken.
-/

namespace GridRobot.Source

/-- Characters with which a word begins. -/
def isWordStart (c : Char) : Bool :=
  c.isAlpha || c == '_'

/-- Characters of which a word is made. -/
def isWordPart (c : Char) : Bool :=
  c.isAlphanum || c == '_'

/-- Blanks within a line. -/
def isSpace (c : Char) : Bool :=
  c == ' ' || c == '\t' || c == '\r' || c.toNat == 0xC

/-- The inside of a block comment with its closing mark, and what follows it. -/
def splitComment : List Char → Option (List Char × List Char)
  | [] => none
  | '*' :: '/' :: rest => some (['*', '/'], rest)
  | c :: rest => (splitComment rest).map fun (inside, after) => (c :: inside, after)

/-- The parts of a split comment make up the text. -/
theorem append_of_splitComment {cs inside after : List Char}
    (h : splitComment cs = some (inside, after)) : inside ++ after = cs := by
  fun_induction splitComment cs generalizing inside after with
  | case1 => simp at h
  | case2 rest =>
    simp only [Option.some.injEq, Prod.mk.injEq] at h
    obtain ⟨rfl, rfl⟩ := h
    rfl
  | case3 c rest hne ih =>
    obtain ⟨⟨i, a⟩, hs, he⟩ := Option.map_eq_some_iff.1 h
    simp only [Prod.mk.injEq] at he
    obtain ⟨rfl, rfl⟩ := he
    simp [ih hs]

/-- The first piece of a text: what it is, its characters, and the rest of the text. -/
structure Piece (text : List Char) where
  /-- The lexeme that the piece is, or nothing when it belongs to a gap. -/
  lexeme : Option Lexeme
  taken : List Char
  rest : List Char
  taken_append_rest : taken ++ rest = text
  taken_ne_nil : taken ≠ []

/-- A piece leaves a shorter text. -/
theorem Piece.rest_lt {text : List Char} (p : Piece text) : p.rest.length < text.length := by
  have h := congrArg List.length p.taken_append_rest
  have := List.length_pos_iff.2 p.taken_ne_nil
  simp only [List.length_append] at h
  omega

/-- The piece of one given character. -/
def Piece.one (lexeme : Option Lexeme) (c : Char) (rest : List Char) : Piece (c :: rest) :=
  ⟨lexeme, [c], rest, rfl, by simp⟩

/-- The piece of two given characters. -/
def Piece.two (lexeme : Option Lexeme) (c d : Char) (rest : List Char) : Piece (c :: d :: rest) :=
  ⟨lexeme, [c, d], rest, rfl, by simp⟩

/-- The piece of a first character and all that follow it in a class. -/
def Piece.span (lexeme : List Char → Option Lexeme) (inClass : Char → Bool) (c : Char)
    (rest : List Char) : Piece (c :: rest) :=
  let taken := c :: rest.takeWhile inClass
  ⟨lexeme taken, taken, rest.dropWhile inClass, by simp [taken], by simp [taken]⟩

/-- The lexeme that a word is. -/
def wordLexeme (cs : List Char) : Lexeme :=
  let word := String.ofList cs
  match Keyword.ofText? word with
  | some k => .keyword k
  | none => .word word

/-- The symbol that a single character is. -/
def symbol? (c : Char) : Option Symbol :=
  match c with
  | '!' => some .bang
  | '(' => some .leftParen
  | ')' => some .rightParen
  | '\x7b' => some .leftBrace
  | '\x7d' => some .rightBrace
  | ';' => some .semicolon
  | ',' => some .comma
  | _ => none

/-- The first piece of a text whose first two characters do not begin a comment or an operator of
two characters. -/
def readShort (c : Char) (rest : List Char) : Except Cause (Piece (c :: rest)) :=
  if Text.isDigit c then
    .ok (.span (fun cs => some (.number (String.ofList cs))) Text.isDigit c rest)
  else if isWordStart c then .ok (.span (fun cs => some (wordLexeme cs)) isWordPart c rest)
  else if c = '\n' then .ok (.one none c rest)
  else if isSpace c then .ok (.span (fun _ => none) isSpace c rest)
  else match symbol? c with
    | some s => .ok (.one (some (.symbol s)) c rest)
    | none => .error (.unexpectedCharacter c)

/-- The first piece of a text. -/
def readPiece (c : Char) (rest : List Char) : Except Cause (Piece (c :: rest)) :=
  match c, rest with
  | '/', '/' :: after => .ok (.span (fun _ => none) (· ≠ '\n') '/' ('/' :: after))
  | '/', '*' :: after =>
    match h : splitComment after with
    | some (inside, beyond) =>
      .ok ⟨none, '/' :: '*' :: inside, beyond, by simp [append_of_splitComment h], by simp⟩
    | none => .error .unterminatedComment
  | '&', '&' :: after => .ok (.two (some (.symbol .both)) '&' '&' after)
  | '|', '|' :: after => .ok (.two (some (.symbol .either)) '|' '|' after)
  | c, rest => readShort c rest

/-- Tokens of a text in order, and the place after its last character. -/
structure TokenList where
  tokens : List Token
  finish : Position
  deriving Repr, DecidableEq

/-- Tokens of a text that begins at a position. -/
def tokenizeFrom (p : Position) (text : List Char) : Except CompileError TokenList :=
  match text with
  | [] => .ok ⟨[], p⟩
  | c :: rest =>
    match readPiece c rest with
    | .error cause => .error (.located p cause)
    | .ok piece => do
      let later ← tokenizeFrom (p.after piece.taken) piece.rest
      match piece.lexeme with
      | none => .ok later
      | some l => .ok ⟨⟨l, p⟩ :: later.tokens, later.finish⟩
termination_by text.length
decreasing_by exact piece.rest_lt

/-- Tokens of a program text. -/
def tokenize (source : String) : Except CompileError TokenList :=
  tokenizeFrom .start source.toList

end GridRobot.Source
