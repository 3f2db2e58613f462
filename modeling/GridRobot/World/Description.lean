import GridRobot.Grid
import GridRobot.World.FormatError

/-!
# World descriptions

A description says how a world is laid out: its size, the robot, walls, beepers and the robot's
bag. It is what a world file means, what a world starts from, and what a picture shows.

## Main definitions

* `Description` is the layout of a world.
* `Description.problem?` is the first reason why a layout is not a world, if there is one.
* `Description.validated` is a layout that is a world, or the error that it is not.

## Design notes

Walls are a set, held as a list in order without repetition. Beeper entries hold each cell once, in
the order in which the cells were first named, so that the first bad entry is the one reported.
-/

namespace GridRobot

/-- Where the robot stands and which way it faces. -/
structure Robot where
  cell : Cell
  facing : Direction
  deriving Repr, DecidableEq

/-- The robot in the south-west corner, facing east. -/
def Robot.home : Robot :=
  ⟨⟨0, 0⟩, .east⟩

/-- Layout of a world; a bag of `none` holds any number of beepers. -/
structure Description where
  width : Int
  height : Int
  robot : Robot
  walls : List Wall
  beepers : List (Cell × Int)
  bag : Option Int
  deriving Repr, DecidableEq

namespace Description

/-- Membership of a cell in a grid of the given size. -/
def inside (width height : Int) (c : Cell) : Bool :=
  0 ≤ c.x && c.x < width && 0 ≤ c.y && c.y < height

/-- Entries with the count of one cell set; a cell that has an entry keeps its place. -/
def setCount (entries : List (Cell × Int)) (c : Cell) (n : Int) : List (Cell × Int) :=
  match entries with
  | [] => [(c, n)]
  | (d, m) :: rest => if d = c then (d, n) :: rest else (d, m) :: setCount rest c n

/-- Count in the entry of a cell, or zero. -/
def countIn (entries : List (Cell × Int)) (c : Cell) : Int :=
  match entries with
  | [] => 0
  | (d, m) :: rest => if d = c then m else countIn rest c

/-- Some walls as a set. -/
def wallSet (walls : List Wall) : List Wall :=
  walls.foldl (fun set w => insertInOrder Wall.before w set) []

/-- What is wrong with a beeper entry in a grid of the given size. -/
def entryProblem? (width height : Int) (entry : Cell × Int) : Option FormatError.Cause :=
  if !inside width height entry.1 then some (.beeperOutside entry.1.x entry.1.y)
  else if entry.2 < 0 then some (.countNegativeAt entry.1.x entry.1.y)
  else none

/-- What is wrong with a bag. -/
def bagProblem? : Option Int → Option FormatError.Cause
  | none => none
  | some n => if n < 0 then some .bagNegative else none

/-- The first reason why a layout is not a world: its size, the robot's place, a beeper entry, the
bag. -/
def problem? (d : Description) : Option FormatError.Cause :=
  if d.width ≤ 0 ∨ d.height ≤ 0 then some (.sizeNotPositive d.width d.height)
  else if !inside d.width d.height d.robot.cell then
    some (.robotOutside d.robot.cell.x d.robot.cell.y)
  else (d.beepers.findSome? (entryProblem? d.width d.height)).or (bagProblem? d.bag)

/-- A layout that is a world, or the error that it is not. -/
def checked (d : Description) : Except FormatError Description :=
  match d.problem? with
  | none => .ok d
  | some cause => .error ⟨cause, none⟩

/-- A layout that is a world, or what comes of telling that it is not. -/
def validated (d : Description) : Except LayoutError Description :=
  d.checked.mapError .ofFormat

end Description

end GridRobot
