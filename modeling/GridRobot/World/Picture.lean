import GridRobot.Breakdown
import GridRobot.World.Basic

/-!
# Pictures of worlds

A world drawn in characters, north at the top. The robot is an arrow, beepers are digits, a bar
between two cells of a row is a wall, and a dash below a cell is a wall on its south side. The last
line tells what is in the bag.

## Main definitions

* `Description.picture` is the picture of a layout.
* `Film` is a stream of pictures shown one after the other.
* `World.summary` is a world in one line of words.
-/

namespace GridRobot

/-- The robot as an arrow. -/
def Direction.arrow : Direction → Char
  | .north => '^'
  | .east => '>'
  | .south => 'v'
  | .west => '<'

/-- The numbers from zero up to, and without, a bound. -/
def upTo (n : Int) : List Int :=
  (List.range n.toNat).map Int.ofNat

namespace Description

/-- What stands for a number of beepers on a cell. -/
def countGlyph (n : Int) : Char :=
  if n ≤ 0 then '.'
  else if n < 10 then Char.ofNat (48 + n.toNat)
  else '+'

/-- What stands for a cell. -/
def glyph (d : Description) (c : Cell) : Char :=
  if d.robot.cell = c then d.robot.facing.arrow else countGlyph (countIn d.beepers c)

/-- What stands between a cell and its eastern neighbour. -/
def divider (d : Description) (c : Cell) : Char :=
  if d.walls.contains ⟨c, .east⟩ then '|' else ' '

/-- What stands below a cell. -/
def floor (d : Description) (c : Cell) : Char :=
  if d.walls.contains ⟨c, .south⟩ then '-' else ' '

/-- The cells of a row. -/
def row (d : Description) (y : Int) : List Char :=
  (upTo d.width).flatMap fun x =>
    if x < d.width - 1 then [d.glyph ⟨x, y⟩, d.divider ⟨x, y⟩] else [d.glyph ⟨x, y⟩]

/-- The walls below a row, without the spaces after the last one. -/
def floorRow (d : Description) (y : Int) : List Char :=
  let drawn := (((upTo d.width).map fun x => d.floor ⟨x, y⟩).intersperse ' ')
  (drawn.reverse.dropWhile (· == ' ')).reverse

/-- A row, and a line below it if there are walls to be shown. -/
def rowLines (d : Description) (y : Int) : List (List Char) :=
  let below := if 0 < y then d.floorRow y else []
  d.row y :: (if below.isEmpty then [] else [below])

/-- The last line of a picture. -/
def bagLine (d : Description) : List Char :=
  "bag: ".toList ++ (match d.bag with
    | none => "infinite".toList
    | some n => (toString n).toList)

/-- The lines of a picture, from north to south. -/
def pictureLines (d : Description) : List (List Char) :=
  (upTo d.height).reverse.flatMap d.rowLines ++ [d.bagLine]

/-- The picture of a layout. -/
def picture (d : Description) : String :=
  "\n".intercalate (d.pictureLines.map String.ofList)

end Description

/-- Can a layout be drawn? The number in its bag must be short enough to be written. -/
def Description.isDrawable (d : Description) : Bool :=
  d.bag.all Text.isWritable

/-- A stream on which pictures are shown one after the other. -/
structure Film where
  /-- Is the screen cleared before each picture? -/
  clear : Bool
  shown : String
  frames : Nat
  /-- Was there something to be shown that cannot be drawn? -/
  broken : Bool
  deriving Repr, DecidableEq

namespace Film

/-- A stream on which nothing has been shown. -/
def blank (clear : Bool) : Film :=
  ⟨clear, "", 0, false⟩

/-- The characters that clear a screen. -/
def clearScreen : String :=
  "\x1b[H\x1b[2J"

/-- The stream after one more picture. -/
def addPicture (f : Film) (d : Description) : Film :=
  { f with
    shown := f.shown ++ (if f.clear then clearScreen else "") ++ d.picture ++ "\n"
    frames := f.frames + 1
    broken := f.broken || !d.isDrawable }

/-- What has been shown, if all of it could be drawn. -/
def text (f : Film) : Except Breakdown String :=
  if f.broken then .error .badNumber else .ok f.shown

end Film

namespace World

/-- A world in one line of words, if the number in its bag is short enough to be written. -/
def summary (w : World) : Except Breakdown String :=
  let facing := w.robot.facing
  if !w.snapshot.isDrawable then .error .badNumber
  else .ok <| "WorldState(" ++ toString w.width ++ "x" ++ toString w.height ++
    ", robot=Robot(x=" ++ toString w.robot.cell.x ++ ", y=" ++ toString w.robot.cell.y ++
    ", direction=<Direction." ++ facing.name ++ ": (" ++ toString facing.dx ++ ", " ++
    toString facing.dy ++ ")>), beepers=" ++ toString w.beepers.length ++ " cells, bag=" ++
    (match w.bag with
      | none => "None"
      | some n => toString n) ++ ")"

end World

end GridRobot
