import GridRobot.Text.Integer
import GridRobot.Yaml.Cursor

/-!
# Directives of YAML text

A line that begins with a percent sign is a directive. It tells the version of YAML, or gives a
short handle to the beginnings of tags; other directives say nothing.

## Main definitions

* `Yaml.Directive` is a directive, `Yaml.Directive.read` reads one.
* `Yaml.Directive.fits` says whether a directive can stand after others.
-/

namespace GridRobot.Yaml

/-- What a directive says. -/
inductive Directive where
  | version (major minor : Nat)
  | tag (handle : List Char)
  | other
  deriving Repr, DecidableEq

namespace Directive

/-- Letters, digits, dashes and underscores. -/
def isWordChar (c : Char) : Bool :=
  c.isAlphanum || c == '-' || c == '_'

/-- Characters of the beginnings of tags, besides escapes. -/
def isTagChar (c : Char) : Bool :=
  c.isAlphanum || "-;/?:@&=+$,_.!~*\x27()[]".toList.contains c

/-- Does a part of a directive end at a place: at a space, a line end or the end of the text? -/
def endsAt (c : Cursor) : Bool :=
  c.head.all fun d => d == ' ' || isBreak d

/-- The name of a directive. -/
def readName (c : Cursor) : Result (String × Cursor) := do
  let (name, after) ← c.span isWordChar
  if name.isEmpty || !endsAt after then .error .malformed
  else .ok (String.ofList name, after)

/-- A part of a version. -/
def readNumber (c : Cursor) : Result (Nat × Cursor) := do
  let (digits, after) ← c.span Char.isDigit
  if digits.isEmpty then .error .malformed
  else match Text.readDigits digits with
    | .error _ => .error (.broken .badNumber)
    | .ok n => .ok (n, after)

/-- A version: two numbers with a point between them. -/
def readVersion (c : Cursor) : Result (Directive × Cursor) := do
  let (major, point) ← readNumber (← c.passSpaces)
  if point.head == some '.' then do
    let (minor, after) ← readNumber (← point.move 1)
    if endsAt after then .ok (.version major minor, after) else .error .malformed
  else .error .malformed

/-- The handle of a tag, which ends with the second of two exclamation marks unless it is a single
one; a space must follow. -/
def readHandle (c : Cursor) : Result (List Char × Cursor) := do
  if c.head == some '!' then do
    let inner ← c.move 1
    if inner.head == some ' ' then .ok (['!'], inner)
    else
      let (word, last) ← inner.span isWordChar
      if last.head == some '!' then do
        let after ← last.move 1
        if after.head == some ' ' then .ok ('!' :: word ++ ['!'], after) else .error .malformed
      else .error .malformed
  else .error .malformed

/-- The bytes that the next escapes stand for. -/
def readEscapes (c : Cursor) : Nat → Result (List UInt8 × Cursor)
  | 0 => .ok ([], c)
  | n + 1 =>
    if c.head == some '%' then do
      let inner ← c.move 1
      let byte ← inner.hexNumber 2
      let (more, last) ← readEscapes (← inner.move 2) n
      .ok (UInt8.ofNat byte :: more, last)
    else .ok ([], c)

/-- Moves over the beginning of a tag, whose escapes must be UTF-8. -/
def passTagStart (c : Cursor) : Nat → Result Cursor
  | 0 => .ok c
  | n + 1 => do
    let (_, plain) ← c.span isTagChar
    let (bytes, after) ← readEscapes plain plain.size
    if bytes.isEmpty then .ok plain
    else if (String.fromUTF8? ⟨bytes.toArray⟩).isSome then passTagStart after n
    else .error .malformed

/-- A handle and the beginning of a tag, which is not empty. -/
def readTag (c : Cursor) : Result (Directive × Cursor) := do
  let (handle, apart) ← readHandle (← c.passSpaces)
  let start ← apart.passSpaces
  let after ← passTagStart start start.size
  if start.index < after.index && endsAt after then .ok (.tag handle, after)
  else .error .malformed

/-- Moves over the end of a directive's line, where nothing but spaces and a comment may stand. -/
def passRest (c : Cursor) : Result Cursor := do
  let rest ← c.passSpaces
  let rest ← if rest.head == some '#' then rest.passLine else .ok rest
  if rest.head.all isBreak then do
    match ← rest.lineEnd? with
    | some (_, after) => .ok after
    | none => .ok rest
  else .error .malformed

/-- The directive that begins here, with the end of its line. -/
def read (c : Cursor) : Result (Directive × Cursor) := do
  let (name, after) ← readName (← c.move 1)
  let (d, rest) ← match name with
    | "YAML" => readVersion after
    | "TAG" => readTag after
    | _ => do .ok (Directive.other, ← after.passLine)
  .ok (d, ← passRest rest)

/-- Can a directive stand after others before one document? There is at most one version, which
begins with one, and no handle is given twice. -/
def fits (d : Directive) (before : List Directive) : Bool :=
  match d with
  | .version major _ =>
    major == 1 && !(before.any fun b => match b with
      | .version _ _ => true
      | _ => false)
  | .tag handle => !before.contains (.tag handle)
  | .other => true

end Directive

end GridRobot.Yaml
