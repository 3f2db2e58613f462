import GridRobot.Reading
import GridRobot.Yaml.Token

/-!
# Trees of YAML text

A YAML document is a tree of scalars, sequences and mappings. This module reads the tree out of the
tokens of a text.

## Main definitions

* `Yaml.Node` is a tree.
* `Yaml.readNode` reads one tree from the beginning of some tokens.
* `Yaml.readDocument` reads the tree of a text with at most one document.

## Design notes

A place where a tree could stand and does not is an empty plain scalar. The item lists of a
block-style mapping value need no indentation of their own; they end where no dash follows.
Sequences and mappings are read only down to a depth, so that reading takes a bounded number of
steps at once.
-/

namespace GridRobot.Yaml

/-- A tree of scalars, sequences and mappings. -/
inductive Node where
  /-- A scalar without quotes. -/
  | plain (text : List Char)
  /-- A scalar in quotes of either kind. -/
  | quoted (text : LooseText)
  | sequence (items : List Node)
  | mapping (entries : List (Node × Node))

/-- The tree of a place where nothing stands. -/
def Node.empty : Node :=
  .plain []

/-- Where a tree stands, which decides what may be there. -/
inductive Context where
  /-- Within brackets. -/
  | flow
  /-- In a block. -/
  | block
  /-- In a block mapping, where a sequence needs no indentation. -/
  | mappingPart
  deriving Repr, DecidableEq

/-- Is the next token one of some tokens? -/
def sees (tokens : List Token) (wanted : List Token) : Bool :=
  tokens.head?.any wanted.contains

/-- Tokens after which a part of a block mapping is known to be left out. -/
def partEnds : List Token :=
  [.key, .value, .blockEnd]

/-- What is in the way of reading a tree. -/
structure Obstacle where
  cause : LoadError
  /-- Number of tokens that are left where it is met. -/
  left : Nat
  deriving Repr, DecidableEq

/-- Outcome of reading. -/
abbrev Outcome (α : Type) : Type := Except Obstacle α

/-- The outcome where the next token fits nowhere. -/
def misfit {α : Type} (tokens : List Token) : Outcome α :=
  .error ⟨.malformed, tokens.length⟩

/-- Number of sequences and mappings that may be nested in each other. -/
def greatestDepth : Nat := 487

/-- The room for further nesting inside a sequence or mapping that begins with the next token, where
there is room for it. -/
def deeper (tokens : List Token) : Nat → Outcome Nat
  | 0 => .error ⟨.broken .tooDeep, tokens.length⟩
  | room + 1 => .ok room

/-- Goes over the comma that stands before an entry, unless the entry is the first one. -/
def readComma (first : Bool) (tokens : List Token) : Outcome (Pause PUnit tokens) :=
  if first then .ok ⟨⟨⟩, tokens, Nat.le_refl _⟩
  else match tokens with
    | .flowEntry :: rest => .ok ⟨⟨⟩, rest, by simp⟩
    | _ => misfit tokens

mutual

/-- Reads one tree, in which there is so much room for nesting. -/
def readNode (room : Nat) (c : Context) (tokens : List Token) : Outcome (Step Node tokens) :=
  match tokens with
  | .plain text :: rest => .ok ⟨.plain text, rest, by simp⟩
  | .quoted text :: rest => .ok ⟨.quoted text, rest, by simp⟩
  | .flowSequenceStart :: rest => do
    let room ← deeper tokens room
    let ⟨items, after, h⟩ ← readFlowSequence room true rest
    .ok ⟨.sequence items, after, by simp; omega⟩
  | .flowMappingStart :: rest => do
    let room ← deeper tokens room
    let ⟨entries, after, h⟩ ← readFlowMapping room true rest
    .ok ⟨.mapping entries, after, by simp; omega⟩
  | .blockSequenceStart :: rest =>
    if c = .flow then misfit tokens
    else do
      let room ← deeper tokens room
      let ⟨items, after, h⟩ ← readBlockSequence room rest
      .ok ⟨.sequence items, after, by simp; omega⟩
  | .blockMappingStart :: rest =>
    if c = .flow then misfit tokens
    else do
      let room ← deeper tokens room
      let ⟨entries, after, h⟩ ← readBlockMapping room rest
      .ok ⟨.mapping entries, after, by simp; omega⟩
  | .blockEntry :: rest =>
    if c = .mappingPart then do
      let room ← deeper tokens room
      let ⟨first, after, h⟩ ← readItem room [.blockEntry, .key, .value, .blockEnd] rest
      let ⟨others, beyond, h₁⟩ ← readBareSequence room after
      .ok ⟨.sequence (first :: others), beyond, by simp; omega⟩
    else misfit tokens
  | _ => misfit tokens
termination_by 4 * tokens.length + 1

/-- Reads the item after a dash, which is left out before some tokens. -/
def readItem (room : Nat) (ends : List Token) (tokens : List Token) : Outcome (Pause Node tokens) :=
  if sees tokens ends then .ok ⟨.empty, tokens, Nat.le_refl _⟩
  else (readNode room .block tokens).map Step.toPause
termination_by 4 * tokens.length + 2

/-- Reads the further items of a sequence without indentation of its own. -/
def readBareSequence (room : Nat) (tokens : List Token) : Outcome (Pause (List Node) tokens) :=
  match tokens with
  | .blockEntry :: rest => do
    let ⟨first, after, h⟩ ← readItem room [.blockEntry, .key, .value, .blockEnd] rest
    let ⟨others, beyond, h₁⟩ ← readBareSequence room after
    .ok ⟨first :: others, beyond, by simp; omega⟩
  | tokens => .ok ⟨[], tokens, Nat.le_refl _⟩
termination_by 4 * tokens.length

/-- Reads the items of a block sequence and its end. -/
def readBlockSequence (room : Nat) (tokens : List Token) : Outcome (Step (List Node) tokens) :=
  match tokens with
  | .blockEntry :: rest => do
    let ⟨first, after, h⟩ ← readItem room [.blockEntry, .blockEnd] rest
    let ⟨others, beyond, h₁⟩ ← readBlockSequence room after
    .ok ⟨first :: others, beyond, by simp; omega⟩
  | .blockEnd :: rest => .ok ⟨[], rest, by simp⟩
  | _ => misfit tokens
termination_by 4 * tokens.length

/-- Reads a key or a value of a block mapping, which may be left out. -/
def readPart (room : Nat) (tokens : List Token) : Outcome (Pause Node tokens) :=
  if sees tokens partEnds then .ok ⟨.empty, tokens, Nat.le_refl _⟩
  else (readNode room .mappingPart tokens).map Step.toPause
termination_by 4 * tokens.length + 2

/-- Reads the value of a block mapping's key, which may be left out with its colon. -/
def readBlockValue (room : Nat) (tokens : List Token) : Outcome (Pause Node tokens) :=
  match tokens with
  | .value :: rest => do
    let ⟨v, after, h⟩ ← readPart room rest
    .ok ⟨v, after, by simp; omega⟩
  | tokens => .ok ⟨.empty, tokens, Nat.le_refl _⟩
termination_by 4 * tokens.length

/-- Reads the entries of a block mapping and its end. -/
def readBlockMapping (room : Nat) (tokens : List Token) :
    Outcome (Step (List (Node × Node)) tokens) :=
  match tokens with
  | .key :: rest => do
    let ⟨k, after, h⟩ ← readPart room rest
    let ⟨v, after₁, h₁⟩ ← readBlockValue room after
    let ⟨others, beyond, h₂⟩ ← readBlockMapping room after₁
    .ok ⟨(k, v) :: others, beyond, by simp; omega⟩
  | .blockEnd :: rest => .ok ⟨[], rest, by simp⟩
  | _ => misfit tokens
termination_by 4 * tokens.length

/-- Reads a key or a value within brackets, which is left out before some tokens. -/
def readFlowPart (room : Nat) (ends : List Token) (tokens : List Token) :
    Outcome (Pause Node tokens) :=
  if sees tokens ends then .ok ⟨.empty, tokens, Nat.le_refl _⟩
  else (readNode room .flow tokens).map Step.toPause
termination_by 4 * tokens.length + 2

/-- Reads the value of a key within brackets, which may be left out with its colon. -/
def readFlowValue (room : Nat) (closing : Token) (tokens : List Token) :
    Outcome (Pause Node tokens) :=
  match tokens with
  | .value :: rest => do
    let ⟨v, after, h⟩ ← readFlowPart room [.flowEntry, closing] rest
    .ok ⟨v, after, by simp; omega⟩
  | tokens => .ok ⟨.empty, tokens, Nat.le_refl _⟩
termination_by 4 * tokens.length

/-- Reads one entry of a bracketed list or mapping: a key with its value, or a tree alone. -/
def readFlowEntry (room : Nat) (closing : Token) (tokens : List Token) :
    Outcome (Step (Node × Option Node) tokens) :=
  match tokens with
  | .key :: rest => do
    -- a key with its value in a bracketed list is a mapping of its own
    let room ← if closing = .flowSequenceEnd then deeper tokens room else .ok room
    let ⟨k, after, h⟩ ← readFlowPart room [.value, .flowEntry, closing] rest
    let ⟨v, beyond, h₁⟩ ← readFlowValue room closing after
    .ok ⟨(k, some v), beyond, by simp; omega⟩
  | tokens => do
    let ⟨n, after, h⟩ ← readNode room .flow tokens
    .ok ⟨(n, none), after, h⟩
termination_by 4 * tokens.length + 2

/-- Reads the items of a bracketed list and its end; a key with its value is a mapping of its
own. -/
def readFlowSequence (room : Nat) (first : Bool) (tokens : List Token) :
    Outcome (Step (List Node) tokens) :=
  match tokens with
  | .flowSequenceEnd :: rest => .ok ⟨[], rest, by simp⟩
  | tokens => do
    let ⟨_, after, h⟩ ← readComma first tokens
    match after, h with
    | .flowSequenceEnd :: rest, h => .ok ⟨[], rest, h⟩
    | after, h => do
      let ⟨entry, beyond, h₁⟩ ← readFlowEntry room .flowSequenceEnd after
      let ⟨others, last, h₂⟩ ← readFlowSequence room false beyond
      let item := match entry with
        | (k, some v) => .mapping [(k, v)]
        | (n, none) => n
      .ok ⟨item :: others, last, by omega⟩
termination_by 4 * tokens.length + 3
decreasing_by
  · have hle : 4 * after.length ≤ 4 * tokens.length := Nat.mul_le_mul_left 4 h
    exact Nat.lt_of_le_of_lt (Nat.add_le_add_right hle 2) (Nat.lt_succ_self _)
  · have hlt : beyond.length < tokens.length := Nat.lt_of_lt_of_le h₁ h
    exact Nat.add_lt_add_right (Nat.mul_lt_mul_of_pos_left hlt (by decide)) 3

/-- Reads the entries of a bracketed mapping and its end; a tree alone is a key without value. -/
def readFlowMapping (room : Nat) (first : Bool) (tokens : List Token) :
    Outcome (Step (List (Node × Node)) tokens) :=
  match tokens with
  | .flowMappingEnd :: rest => .ok ⟨[], rest, by simp⟩
  | tokens => do
    let ⟨_, after, h⟩ ← readComma first tokens
    match after, h with
    | .flowMappingEnd :: rest, h => .ok ⟨[], rest, h⟩
    | after, h => do
      let ⟨entry, beyond, h₁⟩ ← readFlowEntry room .flowMappingEnd after
      let ⟨others, last, h₂⟩ ← readFlowMapping room false beyond
      .ok ⟨(entry.1, entry.2.getD .empty) :: others, last, by omega⟩
termination_by 4 * tokens.length + 3
decreasing_by
  · have hle : 4 * after.length ≤ 4 * tokens.length := Nat.mul_le_mul_left 4 h
    exact Nat.lt_of_le_of_lt (Nat.add_le_add_right hle 2) (Nat.lt_succ_self _)
  · have hlt : beyond.length < tokens.length := Nat.lt_of_lt_of_le h₁ h
    exact Nat.add_lt_add_right (Nat.mul_lt_mul_of_pos_left hlt (by decide)) 3

end

/-- What follows the directives at the beginning of some tokens, as far as they can stand together.
-/
def afterDirectives (before : List Directive) : List Token → List Token
  | .directive d :: rest =>
    if d.fits before then afterDirectives (d :: before) rest else .directive d :: rest
  | tokens => tokens

/-- Is the next token a directive, or the mark at the beginning of a document? -/
def opensDocument : List Token → Bool
  | .directive _ :: _ => true
  | .documentStart :: _ => true
  | _ => false

/-- Reads the tree of a document that begins with a mark. -/
def readContent (tokens : List Token) : Outcome (Pause Node tokens) :=
  if tokens.isEmpty || opensDocument tokens || sees tokens [.documentEnd] then
    .ok ⟨.empty, tokens, Nat.le_refl _⟩
  else (readNode greatestDepth .block tokens).map Step.toPause

/-- Reads the tree of a document, and what follows it. -/
def readTree (tokens : List Token) : Outcome (Node × List Token) := do
  if opensDocument tokens then
    match afterDirectives [] tokens with
    | .documentStart :: content =>
      let ⟨node, rest, _⟩ ← readContent content
      .ok (node, rest)
    | others => misfit others
  else
    let ⟨node, rest, _⟩ ← readNode greatestDepth .block tokens
    .ok (node, rest)

/-- Reads the tree of a text of at most one document; there is none in an empty text. -/
def readDocument (tokens : List Token) : Outcome (Option Node) :=
  if tokens.isEmpty then .ok none
  else do
    let (node, rest) ← readTree tokens
    match rest.dropWhile (· == .documentEnd) with
    | [] => .ok (some node)
    -- directives of a further document are read before it is known that there is one
    | others => misfit (afterDirectives [] others)

end GridRobot.Yaml
