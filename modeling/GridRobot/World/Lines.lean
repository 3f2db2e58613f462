import GridRobot.World.Entry

/-!
# World files made of lines

The classic form of a world file has one entry to a line: a word, a colon and what it says, such as
`Wall: (2, 3) east`. What follows `//` on a line is a comment.

## Main definitions

* `Lines.content` is a line without comment and blanks around it.
* `Lines.readEntry` is the entry of a line.
* `Lines.read` is the description that a text gives.
-/

namespace GridRobot.Lines

/-- Why a line has no entry. -/
inductive Problem where
  | cause (c : FormatError.Cause)
  | numberTooLong
  deriving Repr, DecidableEq

/-- The part of a line before its comment. -/
def beforeComment : List Char → List Char
  | [] => []
  | '/' :: '/' :: _ => []
  | c :: rest => c :: beforeComment rest

/-- A line without its comment and the blanks around it. -/
def content (line : List Char) : List Char :=
  Text.trim (beforeComment line)

/-- The word and the rest of an entry, which a colon separates. -/
def splitEntry (line : List Char) : Option (List Char × List Char) :=
  let word := line.takeWhile Text.isLetter
  match Text.trimStart (line.drop word.length) with
  | ':' :: rest => if word.isEmpty then none else some (word, Text.trim rest)
  | _ => none

/-- The digits of an integer with an optional minus sign, and what follows them. -/
def splitInteger (cs : List Char) : Option ((Bool × List Char) × List Char) :=
  let (negative, cs) := match cs with
    | '-' :: rest => (true, rest)
    | _ => (false, cs)
  let digits := cs.takeWhile Text.isDigit
  if digits.isEmpty then none else some ((negative, digits), cs.dropWhile Text.isDigit)

/-- The integer of a sign and digits. -/
def integerOf (written : Bool × List Char) : Except Problem Int :=
  match Text.readDigits written.2 with
  | .ok n => .ok (if written.1 then -(n : Int) else n)
  | .error _ => .error .numberTooLong

/-- The written coordinates of a point in parentheses, and what follows it. -/
def splitPoint (cs : List Char) :
    Option ((Bool × List Char) × (Bool × List Char) × List Char) :=
  match cs with
  | '(' :: rest => do
    let (x, rest) ← splitInteger (Text.trimStart rest)
    match Text.trimStart rest with
    | ',' :: rest => do
      let (y, rest) ← splitInteger (Text.trimStart rest)
      match Text.trimStart rest with
      | ')' :: tail => some (x, y, Text.trim tail)
      | _ => none
    | _ => none
  | _ => none

/-- The coordinates of a point at the beginning of what an entry says, and what follows it. -/
def readPoint (cs : List Char) : Except Problem (Int × Int × List Char) :=
  match splitPoint cs with
  | none => .error (.cause (.badPoint (String.ofList cs)))
  | some (x, y, tail) => do
    let x ← integerOf x
    let y ← integerOf y
    .ok (x, y, tail)

/-- A count of beepers; a single one if none is written. -/
def readCount (tail : List Char) : Except Problem Int :=
  if tail.isEmpty then .ok 1
  else match Text.readInteger tail with
    | .ok n => .ok n
    | .error _ => .error (.cause (.badCount (String.ofList tail)))

/-- An entry that was made, as the entry of a line. -/
def made (r : Except FormatError.Cause Entry) : Except Problem (Option Entry) :=
  match r with
  | .ok e => .ok (some e)
  | .error c => .error (.cause c)

/-- The entry of a word, with what is said after the colon; a speed says nothing of the world. -/
def entryOf (word rest : List Char) : Except Problem (Option Entry) := do
  match String.ofList (Text.lowerCase word) with
  | "dimension" =>
    let (x, y, _) ← readPoint rest
    made (Entry.dimension? x y)
  | "wall" =>
    let (x, y, side) ← readPoint rest
    made (Entry.wall? x y (.ofString (String.ofList side)))
  | "beeper" =>
    let (x, y, tail) ← readPoint rest
    let count ← readCount tail
    made (Entry.beepers? x y count)
  | "karel" =>
    let (x, y, facing) ← readPoint rest
    let word := if facing.isEmpty then "east" else String.ofList facing
    made (Entry.robot? x y (.ofString word))
  | "beeperbag" =>
    made (Entry.bag? (.ofString (String.ofList rest)) (String.ofList (Text.quoted rest)))
  | "speed" => .ok none
  | _ => .error (.cause (.unknownEntry (String.ofList word)))

/-- The entry of a line without comment; an empty line has none. -/
def readEntry (line : List Char) : Except Problem (Option Entry) :=
  if line.isEmpty then .ok none
  else match splitEntry line with
    | none => .error (.cause (.unreadableLine (String.ofList line)))
    | some (word, rest) => entryOf word rest

/-- The entries of lines, of which the first has the given number. -/
def readEntries (number : Nat) : List (List Char) → Except LayoutError (List Entry)
  | [] => .ok []
  | line :: rest =>
    match readEntry (content line) with
    | .error (.cause c) => .error (.format ⟨c, some number⟩)
    | .error .numberTooLong => .error (.broken .badNumber)
    | .ok entry => do
      let others ← readEntries (number + 1) rest
      .ok (entry.toList ++ others)

/-- The description that a text gives. -/
def read (defaultBag : Option Int) (text : String) : Except LayoutError Description := do
  let entries ← readEntries 1 (Text.lines text.toList)
  describe defaultBag entries

end GridRobot.Lines
