import GridRobot.Text.Loose
import GridRobot.Yaml.Cursor
import GridRobot.Yaml.Directive

/-!
# Tokens of YAML text

YAML shows its structure by indentation (block style) and by brackets (flow style). The scanner
makes both explicit: indentation becomes tokens that open and close blocks, and a text that turns
out to be a mapping key gets a token in front of it.

## Main definitions

* `Yaml.Token` is a token.
* `Yaml.Scanner` is the state of scanning.
* `Yaml.Scan` is what scanning finds, `Yaml.Scan.ofSupply` scans a text.

## Design notes

Scalars are plain or quoted, on one or several lines. Anchors, aliases, tags and block scalars are
not supported and count as bad text. A possible key is remembered for each open bracket; it is
forgotten at the end of its line, and when a key must be there, forgetting it is an error.

A text may break off, so every rule asks for the characters that decide it, and for no more.
-/

namespace GridRobot.Yaml

/-- Tokens of YAML text. -/
inductive Token where
  | directive (d : Directive)
  | documentStart
  | documentEnd
  | blockSequenceStart
  | blockMappingStart
  | blockEnd
  | flowSequenceStart
  | flowSequenceEnd
  | flowMappingStart
  | flowMappingEnd
  | blockEntry
  | flowEntry
  | key
  | value
  /-- A scalar without quotes. -/
  | plain (text : List Char)
  /-- A scalar in quotes of either kind. -/
  | quoted (text : LooseText)
  deriving Repr, DecidableEq

/-- A text that may turn out to be a mapping key. -/
structure Candidate where
  /-- Number of tokens before the text. -/
  tokens : Nat
  /-- Must the text be a key? -/
  required : Bool
  index : Nat
  line : Nat
  column : Nat

/-- State of scanning; `candidates` has one place for each open bracket, innermost first, and one
for the text outside of brackets. -/
structure Scanner where
  cursor : Cursor
  /-- Tokens found so far, in order. -/
  tokens : Array Token
  indent : Int
  indents : List Int
  /-- Number of open brackets. -/
  depth : Nat
  keyAllowed : Bool
  candidates : List (Option Candidate)

namespace Scanner

/-- The beginning of scanning. -/
def start (c : Cursor) : Scanner :=
  ⟨c, #[], -1, [], 0, true, [none]⟩

/-- One more token. -/
def add (s : Scanner) (t : Token) : Scanner :=
  { s with tokens := s.tokens.push t }

/-- Are there no open brackets? -/
def inBlock (s : Scanner) : Bool :=
  s.depth == 0

/-- The candidate of the innermost bracket. -/
def candidate (s : Scanner) : Option Candidate :=
  s.candidates.head?.join

/-- Another candidate for the innermost bracket. -/
def setCandidate (s : Scanner) (c : Option Candidate) : Scanner :=
  { s with candidates := c :: s.candidates.drop 1 }

/-- Forgets the candidate of the innermost bracket. -/
def forget (s : Scanner) : Result Scanner :=
  if s.candidate.any (·.required) then .error .malformed else .ok (s.setCandidate none)

/-- Is a candidate too far behind to be a key? -/
def isStale (s : Scanner) (c : Candidate) : Bool :=
  c.line ≠ s.cursor.line || 1024 < s.cursor.index - c.index

/-- Forgets the candidates that are too far behind. -/
def forgetStale (s : Scanner) : Result Scanner :=
  if s.candidates.any fun o => o.any fun c => s.isStale c && c.required then
    .error .malformed
  else
    .ok { s with candidates := s.candidates.map fun o => o.filter fun c => !s.isStale c }

/-- Remembers that the text at this place may be a key. -/
def remember (s : Scanner) : Result Scanner :=
  if s.keyAllowed then do
    let s ← s.forget
    .ok (s.setCandidate (some ⟨s.tokens.size, s.inBlock && s.indent == s.cursor.column,
      s.cursor.index, s.cursor.line, s.cursor.column⟩))
  else .ok s

/-- Closes the blocks that are indented more than a column; within brackets there are none. -/
def closeBlocks (s : Scanner) (column : Int) : Scanner :=
  if s.inBlock then go s s.indents else s
where
  go (s : Scanner) : List Int → Scanner
    | [] => s
    | outer :: more =>
      if column < s.indent then go ({ s with indent := outer, indents := more }.add .blockEnd) more
      else s

/-- Opens a block at a column, unless one is open there; the token that says so is put in at a
place among the tokens. -/
def openBlock (s : Scanner) (column : Nat) (t : Token) (place : Nat) : Scanner :=
  if s.indent < column then
    { s with
      indents := s.indent :: s.indents
      indent := column
      tokens := s.tokens.insertIdxIfInBounds place t }
  else s

/-- Moves over blanks, comments and line ends. -/
def skipGap (s : Scanner) : Result Scanner :=
  go s s.cursor.size.succ
where
  go (s : Scanner) : Nat → Result Scanner
    | 0 => .ok s
    | n + 1 => do
      let c ← s.cursor.passSpaces
      let c ← if c.head == some '#' then c.passLine else .ok c
      match ← c.lineEnd? with
      | some (_, after) =>
        go { s with cursor := after, keyAllowed := s.keyAllowed || s.inBlock } n
      | none => .ok { s with cursor := c }

/-- Moves over some characters and adds a token. -/
def take (s : Scanner) (n : Nat) (t : Token) : Result Scanner := do
  .ok ({ s with cursor := ← s.cursor.move n }.add t)

/-- Closes all blocks, where no key can follow on the line. -/
def closeAll (s : Scanner) : Result Scanner := do
  .ok { ← (s.closeBlocks (-1)).forget with keyAllowed := false }

/-- A mark between documents. -/
def scanMark (s : Scanner) (t : Token) : Result Scanner := do
  (← s.closeAll).take 3 t

/-- A directive, which takes up its line and the end of it. -/
def scanDirective (s : Scanner) : Result Scanner := do
  let s ← s.closeAll
  let (d, after) ← Directive.read s.cursor
  .ok ({ s with cursor := after }.add (.directive d))

/-- An opening bracket. -/
def scanOpening (s : Scanner) (t : Token) : Result Scanner := do
  let s ← s.remember
  { s with
    depth := s.depth + 1
    keyAllowed := true
    candidates := none :: s.candidates }.take 1 t

/-- A closing bracket; one that closes nothing fits nowhere, which is found out where trees are
read. -/
def scanClosing (s : Scanner) (t : Token) : Result Scanner := do
  let s ← s.forget
  { s with
    depth := s.depth - 1
    keyAllowed := false
    candidates := if s.inBlock then s.candidates else s.candidates.drop 1 }.take 1 t

/-- A comma within brackets. -/
def scanComma (s : Scanner) : Result Scanner := do
  let s ← { s with keyAllowed := true }.forget
  s.take 1 .flowEntry

/-- A dash before an item of a list. -/
def scanDash (s : Scanner) : Result Scanner := do
  if s.inBlock && !s.keyAllowed then .error .malformed
  else
    let s := if s.inBlock then s.openBlock s.cursor.column .blockSequenceStart s.tokens.size else s
    let s ← { s with keyAllowed := true }.forget
    s.take 1 .blockEntry

/-- A question mark before a key. -/
def scanQuestion (s : Scanner) : Result Scanner := do
  if s.inBlock && !s.keyAllowed then .error .malformed
  else
    let s := if s.inBlock then s.openBlock s.cursor.column .blockMappingStart s.tokens.size else s
    let s ← { s with keyAllowed := s.inBlock }.forget
    s.take 1 .key

/-- A colon before a value: what stands before it on the line becomes a key. -/
def scanColon (s : Scanner) : Result Scanner := do
  match s.candidate with
  | some c =>
    -- only now is it known that the text was a key, so its mark goes in front of it
    let s := { s.setCandidate none with tokens := s.tokens.insertIdxIfInBounds c.tokens .key }
    let s := if s.inBlock then s.openBlock c.column .blockMappingStart c.tokens else s
    { s with keyAllowed := false }.take 1 .value
  | none =>
    if s.inBlock && !s.keyAllowed then .error .malformed
    else
      let s :=
        if s.inBlock then s.openBlock s.cursor.column .blockMappingStart s.tokens.size else s
      let s ← { s with keyAllowed := s.inBlock }.forget
      s.take 1 .value

/-- Does a character end a plain scalar, given the one after it? -/
def endsPlain (inBlock : Bool) (c : Char) (after : Option Char) : Bool :=
  isGap (some c) ||
    (c == ':' &&
      (isGap after || (!inBlock && after.any fun d => ",[]\x7b\x7d".toList.contains d))) ||
    (!inBlock && ",?[]\x7b\x7d".toList.contains c)

/-- Number of the next characters that belong to a plain scalar. -/
def plainLength (inBlock : Bool) : List Char → Nat
  | [] => 0
  | c :: rest => if endsPlain inBlock c rest.head? then 0 else plainLength inBlock rest + 1

/-- Number of the next characters that belong to a plain scalar, where what ends it can be seen. -/
def plainEnd (s : Scanner) : Result Nat := do
  let length := plainLength s.inBlock s.cursor.rest
  -- a colon ends the scalar only because of the character after it
  s.cursor.need (length + if s.cursor.peek length == some ':' then 2 else 1)
  .ok length

/-- The line ends and blanks that follow a first line end of a plain scalar; nothing at a mark
between documents. -/
def plainBreaks (c : Cursor) : Nat → Result (Option (List Char × Cursor))
  | 0 => .ok (some ([], c))
  | n + 1 => do
    if ← c.atSeparator then .ok none
    else
      let c ← c.passSpaces
      match ← c.lineEnd? with
      | some (d, after) => do
        .ok ((← plainBreaks after n).map fun (breaks, last) => (d :: breaks, last))
      | none => .ok (some ([], c))

/-- What a line end, with further ones after it, stands for in a scalar: a single one is a
space. -/
def folded (first : Char) (further : List Char) : List Char :=
  if first ≠ '\n' then first :: further else if further.isEmpty then [' '] else further

/-- The blanks and line ends after a piece of a plain scalar, as far as they may belong to it. -/
def plainSpaces (s : Scanner) : Result (List Char × Scanner) := do
  let (blanks, c) ← s.cursor.span (· == ' ')
  match ← c.lineEnd? with
  | none => .ok (blanks, { s with cursor := c })
  | some (first, after) =>
    let s := { s with cursor := after, keyAllowed := true }
    match ← plainBreaks after after.size.succ with
    | none => .ok ([], s)
    | some (further, last) => .ok (folded first further, { s with cursor := last })

/-- The pieces of a plain scalar from this place on, where some blanks have been read before. -/
def plainPieces (s : Scanner) (blanks : List Char) : Nat → Result (List Char × Scanner)
  | 0 => .ok ([], s)
  | n + 1 => do
    let length ← if s.cursor.head == some '#' then .ok 0 else s.plainEnd
    if length = 0 then .ok ([], s)
    else
      let piece := s.cursor.rest.take length
      let (spaces, s) ← { s with
        keyAllowed := false
        cursor := ← s.cursor.move length }.plainSpaces
      -- blanks count only where more text of the same scalar follows
      if spaces.isEmpty || s.cursor.head == some '#' ||
          (s.inBlock && (s.cursor.column : Int) < s.indent + 1) then
        .ok (blanks ++ piece, s)
      else
        let (more, s) ← s.plainPieces spaces n
        .ok (blanks ++ piece ++ more, s)

/-- A plain scalar. -/
def scanPlain (s : Scanner) : Result Scanner := do
  let s ← s.remember
  let (text, s) ← { s with keyAllowed := false }.plainPieces [] s.cursor.size
  .ok (s.add (.plain text))

/-- What a backslash and a letter stand for. -/
def escape? (c : Char) : Option Char :=
  match c with
  | '0' => some (Char.ofNat 0)
  | 'a' => some (Char.ofNat 7)
  | 'b' => some (Char.ofNat 8)
  | 't' => some '\t'
  | '\t' => some '\t'
  | 'n' => some '\n'
  | 'v' => some (Char.ofNat 0xB)
  | 'f' => some (Char.ofNat 0xC)
  | 'r' => some '\r'
  | 'e' => some (Char.ofNat 0x1B)
  | ' ' => some ' '
  | '\x22' => some '\x22'
  | '\\' => some '\\'
  | '/' => some '/'
  | 'N' => some (Char.ofNat 0x85)
  | '_' => some (Char.ofNat 0xA0)
  | 'L' => some (Char.ofNat 0x2028)
  | 'P' => some (Char.ofNat 0x2029)
  | _ => none

/-- Number of hexadecimal digits that follow a backslash and a letter. -/
def escapeLength? (c : Char) : Option Nat :=
  match c with
  | 'x' => some 2
  | 'u' => some 4
  | 'U' => some 8
  | _ => none

/-- The line ends within a quoted scalar, in which no mark between documents may stand. -/
def quotedBreaks (c : Cursor) : Nat → Result (List Char × Cursor)
  | 0 => .ok ([], c)
  | n + 1 => do
    if ← c.atSeparator then .error .malformed
    else
      let (_, c) ← c.span fun d => d == ' ' || d == '\t'
      match ← c.lineEnd? with
      | some (d, after) => do
        let (breaks, last) ← quotedBreaks after n
        .ok (d :: breaks, last)
      | none => .ok ([], c)

/-- Greatest number that is taken for a code at all. -/
def greatestCode : Nat := Nat.pow 2 31 - 1

/-- The code point that has a code. -/
def codedPoint (code : Nat) : Result CodePoint :=
  if greatestCode < code then .error (.broken .tooGreat)
  else match CodePoint.ofCode? code with
    | none => .error (.broken .badNumber)
    | some p => .ok p

/-- What some line ends stand for in a quoted scalar, and the place after them; a first one that is
escaped stands for nothing. -/
def foldedBreaks (first : Option Char) (c : Cursor) : Result (List CodePoint × Cursor) := do
  let (further, last) ← quotedBreaks c c.size.succ
  match first with
  | some d => .ok ((folded d further).map .char, last)
  | none => .ok (further.map .char, last)

/-- What stands for something after a backslash, and the place after it. -/
def escaped (c : Cursor) : Result (List CodePoint × Cursor) :=
  match c.head with
  | none => .error .malformed
  | some e => do
    match escape? e, escapeLength? e with
    | some r, _ => .ok ([.char r], ← c.move 1)
    | none, some length =>
      let digits ← c.move 1
      let p ← codedPoint (← digits.hexNumber length)
      .ok ([p], ← digits.move length)
    | none, none =>
      match ← c.lineEnd? with
      | some (_, after) => foldedBreaks none after
      | none => .error .malformed

/-- The next piece of a quoted scalar, and the place after it; nothing at the closing quote. -/
def quotedPiece (double : Bool) (c : Cursor) (d : Char) :
    Result (Option (List CodePoint × Cursor)) := do
  if d == ' ' || d == '\t' || isBreak d then
    let (blanks, after) ← c.span fun e => e == ' ' || e == '\t'
    match ← after.lineEnd? with
    | none => .ok (some (blanks.map .char, after))
    | some (first, beyond) => .ok (some (← foldedBreaks (some first) beyond))
  else if double && d == '\x22' then .ok none
  else if !double && d == '\x27' then
    c.need 2
    if c.peek 1 == some '\x27' then .ok (some ([.char '\x27'], ← c.move 2)) else .ok none
  else if double && d == '\\' then .ok (some (← escaped (← c.move 1)))
  else .ok (some ([.char d], ← c.move 1))

/-- The inside of a quoted scalar up to its closing quote. -/
def quotedPieces (double : Bool) (c : Cursor) : Nat → Result (List CodePoint × Cursor)
  | 0 => .error .malformed
  | n + 1 =>
    match c.head with
    | none => .error .malformed
    | some d => do
      match ← quotedPiece double c d with
      | none => .ok ([], ← c.move 1)
      | some (piece, after) =>
        let (more, last) ← quotedPieces double after n
        .ok (piece ++ more, last)

/-- A quoted scalar. -/
def scanQuoted (s : Scanner) (double : Bool) : Result Scanner := do
  let s ← s.remember
  let (text, after) ← quotedPieces double (← s.cursor.move 1) s.cursor.size
  .ok ({ s with keyAllowed := false, cursor := after }.add (.quoted ⟨text⟩))

/-- Characters that begin no plain scalar, or only if no gap follows. -/
def indicators : List Char :=
  "-?:,[]\x7b\x7d#&*!|>\x27\x22%@\x60".toList

/-- May a plain scalar begin here? -/
def startsPlain (s : Scanner) (c : Char) : Bool :=
  if indicators.contains c then
    !isGap (s.cursor.peek 1) && (c == '-' || (s.inBlock && (c == '?' || c == ':')))
  else !isGap (some c)

/-- Does a mark between documents stand here? It can only stand at the beginning of a line. -/
def atMark (s : Scanner) (c : Char) : Result Bool :=
  if s.cursor.column == 0 && (c == '-' || c == '.') then s.cursor.atSeparator else .ok false

/-- The next token where it is neither bracketed, a comma nor quoted. -/
def scanApart (s : Scanner) (c : Char) : Result Scanner := do
  if indicators.contains c || c == '\t' then s.cursor.need 2
  let apart := isGap (s.cursor.peek 1)
  if c == '-' && apart then s.scanDash
  else if c == '?' && (!s.inBlock || apart) then s.scanQuestion
  else if c == ':' && (!s.inBlock || apart) then s.scanColon
  else if s.startsPlain c then s.scanPlain
  else .error .malformed

/-- The next token, where the next character is known and no gap stands before it. -/
def scanToken (s : Scanner) (c : Char) : Result Scanner := do
  if c == '%' && s.cursor.column == 0 then s.scanDirective
  else if ← s.atMark c then s.scanMark (if c == '-' then .documentStart else .documentEnd)
  else match c with
    | '[' => s.scanOpening .flowSequenceStart
    | '\x7b' => s.scanOpening .flowMappingStart
    | ']' => s.scanClosing .flowSequenceEnd
    | '\x7d' => s.scanClosing .flowMappingEnd
    | ',' => s.scanComma
    | '\x27' => s.scanQuoted false
    | '\x22' => s.scanQuoted true
    | _ => s.scanApart c

/-- Goes on to where the next token begins, or to the end of the text. -/
def advance (s : Scanner) : Result Scanner := do
  let ahead ← (← s.skipGap).forgetStale
  .ok (ahead.closeBlocks ahead.cursor.column)

/-- One step of scanning: a token, or the end of the text. -/
def scanNext (s : Scanner) : Result (Scanner × Bool) := do
  let ahead ← s.advance
  match ahead.cursor.head with
  | none => do .ok (← (ahead.closeBlocks (-1)).forget, true)
  | some c => do .ok (← (← ahead.scanToken c).forgetStale, false)

/-- Number of tokens before the first text that may yet turn out to be a key. -/
def settled (s : Scanner) : Nat :=
  (s.candidates.filterMap fun o => o.map (·.tokens)).foldl min s.tokens.size

end Scanner

/-- What scanning a text finds: its tokens, or those of its beginning up to where scanning fails. -/
structure Scan where
  tokens : List Token
  /-- Number of the tokens that are sure to have no other one put in before them. -/
  settled : Nat
  failure : Option LoadError

namespace Scan

/-- What is found by a scanner that goes no further. -/
def ofScanner (s : Scanner) (failure : Option LoadError) : Scan :=
  ⟨s.tokens.toList, s.settled, failure⟩

/-- Scans up to the end of the text, or to where that fails, in at most so many steps. -/
def continued (s : Scanner) : Nat → Scan
  | 0 => ofScanner s none
  | n + 1 =>
    match s.scanNext with
    | .error e => ofScanner s (some e)
    | .ok (last, true) => ofScanner last none
    | .ok (after, false) => continued after n

/-- The first place of a text, which may begin with a byte order mark. -/
def firstPlace (supply : Supply) : Result Cursor := do
  let start := Cursor.start supply
  start.need 1
  if start.head == some (Char.ofNat 0xFEFF) then start.move 1 else .ok start

/-- Scans a text; every step but the last one takes at least one character. -/
def ofSupply (supply : Supply) : Scan :=
  match firstPlace supply with
  | .error e => ⟨[], 0, some e⟩
  | .ok c => continued (.start c) c.size.succ

end Scan

end GridRobot.Yaml
