import GridRobot.Text.Digit
import GridRobot.Yaml.Supply

/-!
# Places in YAML text

## Main definitions

* `Yaml.isBreak` and `Yaml.isGap` are the classes of characters that matter.
* `Yaml.Cursor` is a place in the text.
* `Yaml.Cursor.need` makes sure that some characters can be seen from a place.

## Design notes

The text may break off, and then it matters how far scanning looks ahead. After every move the next
character is looked at; what more is needed, a caller asks for.
-/

namespace GridRobot.Yaml

/-- Outcome of a part of scanning. -/
abbrev Result (α : Type) : Type := Except LoadError α

/-- Characters that end a line. -/
def isBreak (c : Char) : Bool :=
  c == '\n' || c == '\r' || c.toNat == 0x85 || c.toNat == 0x2028 || c.toNat == 0x2029

/-- The end of the text, a blank or a line end: what must follow an indicator. -/
def isGap : Option Char → Bool
  | none => true
  | some c => c == ' ' || c == '\t' || isBreak c

/-- A place in the text: what is still to come, and how much has been read. -/
structure Cursor where
  rest : List Char
  /-- What is met beyond the rest where it breaks off; nothing where it ends. -/
  beyond : Option LoadError
  index : Nat
  line : Nat
  column : Nat
  /-- Number of characters of the whole text. -/
  size : Nat

namespace Cursor

/-- The place at the beginning of a text. -/
def start (supply : Supply) : Cursor :=
  ⟨supply.text, supply.beyond, 0, 0, 0, supply.text.length⟩

/-- The character some places ahead. -/
def peek (c : Cursor) (k : Nat) : Option Char :=
  c.rest[k]?

/-- The next character. -/
def head (c : Cursor) : Option Char :=
  c.rest.head?

/-- Makes sure that so many characters can be seen, or the end of the text. -/
def need (c : Cursor) (n : Nat) : Result Unit :=
  match c.beyond with
  | none => .ok ()
  | some e => if (c.rest.take n).length < n then .error e else .ok ()

/-- The place after one more character; a carriage return before a line feed does not end the
line. -/
def next (c : Cursor) : Cursor :=
  match c.rest with
  | [] => c
  | '\r' :: '\n' :: rest =>
    { c with rest := '\n' :: rest, index := c.index + 1, column := c.column + 1 }
  | d :: rest =>
    let c := { c with rest, index := c.index + 1 }
    if isBreak d then { c with line := c.line + 1, column := 0 }
    else if d.toNat == 0xFEFF then c
    else { c with column := c.column + 1 }

/-- The place after some more characters. -/
def skip (c : Cursor) : Nat → Cursor
  | 0 => c
  | n + 1 => (c.next).skip n

/-- Moves over some characters. -/
def move (c : Cursor) (n : Nat) : Result Cursor := do
  let after := c.skip n
  after.need 1
  .ok after

/-- The next characters that belong to a class; moves over them. -/
def span (c : Cursor) (inClass : Char → Bool) : Result (List Char × Cursor) := do
  let taken := c.rest.takeWhile inClass
  .ok (taken, ← c.move taken.length)

/-- Moves over spaces. -/
def passSpaces (c : Cursor) : Result Cursor :=
  (c.span (· == ' ')).map (·.2)

/-- Moves to the end of the line. -/
def passLine (c : Cursor) : Result Cursor :=
  (c.span fun d => !isBreak d).map (·.2)

/-- A line end as it counts in a text, if there is one here; moves over it. -/
def lineEnd? (c : Cursor) : Result (Option (Char × Cursor)) :=
  match c.rest with
  | '\r' :: '\n' :: _ => do .ok (some ('\n', ← c.move 2))
  | d :: _ =>
    if isBreak d then do
      .ok (some (if d.toNat == 0x2028 || d.toNat == 0x2029 then d else '\n', ← c.move 1))
    else .ok none
  | [] => .ok none

/-- Does a mark that separates documents stand here? -/
def atSeparator (c : Cursor) : Result Bool := do
  c.need 3
  let mark := c.rest.take 3
  if mark == ['-', '-', '-'] || mark == ['.', '.', '.'] then do
    c.need 4
    .ok (isGap (c.peek 3))
  else .ok false

/-- The number that the next characters denote, which must be so many hexadecimal digits. -/
def hexNumber (c : Cursor) (n : Nat) : Result Nat := do
  let digits := (c.rest.take n).takeWhile fun d => (Text.hexValue? d).isSome
  if digits.length < n then do
    c.need (digits.length + 1)
    .error .malformed
  else match Text.hexNumber? digits with
    | none => .error .malformed
    | some code => .ok code

end Cursor

end GridRobot.Yaml
