import GridRobot.World.Description

/-!
# Entries of world files

A world file is a list of entries, each of which says one thing about the world: its size, a wall,
some beepers, the robot, the bag. Files count cells from one, descriptions from zero.

## Main definitions

* `Entry` is an entry, and `Entry.dimension?`, `Entry.wall?`, … check what is written in one.
* `Draft` is what the entries so far say, and `Draft.add` takes one more of them into account.
* `Draft.finish` is the description that a whole file gives.

## Design notes

Everything that can be wrong with a single entry is found when the entry is made, so `Draft.add`
always succeeds and a file means the fold of its entries.
-/

namespace GridRobot

/-- One thing that a world file says; cells are counted from one. -/
inductive Entry where
  | dimension (width height : Int)
  | wall (x y : Int) (side : Direction)
  | beepers (x y count : Int)
  | robot (x y : Int) (facing : Direction)
  | bag (count : Option Int)
  deriving Repr, DecidableEq

namespace Entry

/-- The size of a world, which must be positive. -/
def dimension? (width height : Int) : Except FormatError.Cause Entry :=
  if width ≤ 0 ∨ height ≤ 0 then .error (.dimensionNotPositive width height)
  else .ok (.dimension width height)

/-- A direction written as a word. -/
def direction? (word : LooseText) : Except FormatError.Cause Direction :=
  match word.toString?.bind Direction.ofWord? with
  | some d => .ok d
  | none => .error (.unknownDirection word)

/-- A wall on a side given as a word. -/
def wall? (x y : Int) (side : LooseText) : Except FormatError.Cause Entry :=
  (direction? side).map (.wall x y)

/-- Some beepers, of which there cannot be fewer than none. -/
def beepers? (x y count : Int) : Except FormatError.Cause Entry :=
  if count < 0 then .error (.countNegative count) else .ok (.beepers x y count)

/-- The robot, facing a direction given as a word. -/
def robot? (x y : Int) (facing : LooseText) : Except FormatError.Cause Entry :=
  (direction? facing).map (.robot x y)

/-- Words for a bag without end. -/
def infiniteWords : List String :=
  ["infinite", "infinity", "inf", "unlimited"]

/-- The bag given as a word or a number; a bad one is told as it is shown. -/
def bag? (written : LooseText) (shown : String) : Except FormatError.Cause Entry :=
  let cs := Text.trim (written.toString?.getD "").toList
  if infiniteWords.contains (String.ofList (Text.lowerCase cs)) then .ok (.bag none)
  else match Text.readInteger cs with
    | .error _ => .error (.badBag shown)
    | .ok n => if n < 0 then .error .bagNegative else .ok (.bag (some n))

end Entry

/-- What the entries of a world file say so far; cells are counted from zero. -/
structure Draft where
  size : Option (Int × Int)
  robot : Robot
  walls : List Wall
  beepers : List (Cell × Int)
  bag : Option Int
  deriving Repr, DecidableEq

namespace Draft

/-- What is said before the first entry. -/
def empty (defaultBag : Option Int) : Draft :=
  ⟨none, .home, [], [], defaultBag⟩

/-- The cell of coordinates that are counted from one. -/
def cellAt (x y : Int) : Cell :=
  ⟨x - 1, y - 1⟩

/-- Takes one more entry into account: a later size, robot or bag replaces an earlier one, and
beepers on the same cell are added up. -/
def add (d : Draft) : Entry → Draft
  | .dimension width height => { d with size := some (width, height) }
  | .wall x y side => { d with walls := insertInOrder Wall.before ⟨cellAt x y, side⟩ d.walls }
  | .beepers x y count =>
    let cell := cellAt x y
    { d with
      beepers := Description.setCount d.beepers cell (Description.countIn d.beepers cell + count) }
  | .robot x y facing => { d with robot := ⟨cellAt x y, facing⟩ }
  | .bag count => { d with bag := count }

/-- Takes entries into account in turn. -/
def addAll (d : Draft) (entries : List Entry) : Draft :=
  entries.foldl add d

/-- The description of a draft, if it has a size and describes a world. -/
def finish (d : Draft) : Except FormatError Description :=
  match d.size with
  | none => .error ⟨.missingDimension, none⟩
  | some (width, height) =>
    Description.checked ⟨width, height, d.robot, d.walls, d.beepers, d.bag⟩

end Draft

/-- The description that a list of entries gives. -/
def describe (defaultBag : Option Int) (entries : List Entry) : Except LayoutError Description :=
  ((Draft.empty defaultBag).addAll entries).finish.mapError LayoutError.ofFormat

end GridRobot
