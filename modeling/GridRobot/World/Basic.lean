import GridRobot.World.Description
import GridRobot.Run.Fault
import GridRobot.Program.Basic

/-!
# Worlds

A world is a grid with walls and beepers, and a robot on it with a bag of beepers. The robot acts
on the world by primitive actions, each of which either changes the world or meets a fault and
leaves it as it was.

## Main definitions

* `World` is the state of a world, `World.ofDescription` the world that a layout describes, and
  `World.snapshot` the layout of a world.
* `World.reset` lays a world out anew, one part after the other.
* `World.hasWall`, `World.count` and `World.senses` are what can be found out about a world.
* `World.perform` is the effect of a primitive action.

## Design notes

A wall is stored for both of the cells it separates, and only for cells of the grid. Walls are kept
in order without repetition, beeper entries in order of their cells with positive counts. So two
worlds are equal exactly when they look alike.
-/

namespace GridRobot

/-- State of a world; a bag of `none` holds any number of beepers. -/
structure World where
  width : Int
  height : Int
  robot : Robot
  walls : List Wall
  beepers : List (Cell × Nat)
  bag : Option Nat
  deriving Repr, DecidableEq

namespace World

/-- Entries with `n` more beepers on a cell. -/
def addCount (c : Cell) (n : Nat) : List (Cell × Nat) → List (Cell × Nat)
  | [] => [(c, n)]
  | (d, m) :: rest =>
    if c = d then (d, m + n) :: rest
    else if c.before d then (c, n) :: (d, m) :: rest
    else (d, m) :: addCount c n rest

/-- Entries with one beeper fewer on a cell; an entry of one beeper disappears. -/
def removeOne (c : Cell) : List (Cell × Nat) → List (Cell × Nat)
  | [] => []
  | (d, m) :: rest =>
    if c = d then (if m ≤ 1 then rest else (d, m - 1) :: rest) else (d, m) :: removeOne c rest

/-- Beepers in the entry of a cell, or none. -/
def countIn (entries : List (Cell × Nat)) (c : Cell) : Nat :=
  match entries with
  | [] => 0
  | (d, m) :: rest => if d = c then m else countIn rest c

/-- The positive counts of some entries, in order of their cells. -/
def positiveCounts (entries : List (Cell × Int)) : List (Cell × Nat) :=
  entries.foldl (fun counts e => if 0 < e.2 then addCount e.1 e.2.toNat counts else counts) []

/-- The sides of a wall that belong to cells of the grid. -/
def wallSides (width height : Int) (w : Wall) : List Wall :=
  [w, w.flip].filter fun side => Description.inside width height side.cell

/-- Some walls as a set that holds both sides of each, as far as they belong to the grid. -/
def bothSides (width height : Int) (walls : List Wall) : List Wall :=
  Description.wallSet (walls.flatMap (wallSides width height))

/-- The world that a layout describes. -/
def ofDescription (d : Description) : Except LayoutError World := do
  let d ← d.validated
  .ok {
    width := d.width
    height := d.height
    robot := d.robot
    walls := bothSides d.width d.height d.walls
    beepers := positiveCounts d.beepers
    bag := d.bag.map Int.toNat }

/-- A wall is stored for the cells of the grid that it separates. -/
def addWall (w : World) (wall : Wall) : World :=
  { w with
    walls := (wallSides w.width w.height wall).foldl
      (fun set side => insertInOrder Wall.before side set) w.walls }

/-- All checks of a layout, and then one part of the world after the other. -/
def resetting (d : Description) : ExceptT LayoutError (StateM World) Unit := do
  let _ ← liftM (m := Except LayoutError) d.validated
  modify fun w => { w with width := d.width, height := d.height }
  modify fun w => { w with robot := d.robot }
  modify fun w => { w with bag := d.bag.map Int.toNat }
  modify fun w => { w with beepers := positiveCounts d.beepers }
  modify fun w => { w with walls := [] }
  d.walls.forM fun wall => modify fun w => w.addWall wall

/-- A world that is laid out anew: whether that went well, and the world after it. -/
def reset (w : World) (d : Description) : Except LayoutError Unit × World :=
  (resetting d).run.run w

/-- The layout of a world as it is now. -/
def snapshot (w : World) : Description where
  width := w.width
  height := w.height
  robot := w.robot
  walls := w.walls
  beepers := w.beepers.map fun (c, n) => (c, (n : Int))
  bag := w.bag.map Int.ofNat

/-- Membership of a cell in the grid. -/
def inside (w : World) (c : Cell) : Bool :=
  Description.inside w.width w.height c

/-- Is a cell closed in a direction, by a wall or by the end of the grid? -/
def hasWall (w : World) (c : Cell) (d : Direction) : Bool :=
  w.walls.contains ⟨c, d⟩ || !w.inside (c.step d)

/-- Can the robot leave its cell in a direction? -/
def isClear (w : World) (d : Direction) : Bool :=
  !w.hasWall w.robot.cell d

/-- Number of beepers on a cell. -/
def count (w : World) (c : Cell) : Nat :=
  countIn w.beepers c

/-- Number of beepers on the robot's cell. -/
def countHere (w : World) : Nat :=
  w.count w.robot.cell

/-- Is there a beeper left in the bag? -/
def bagHasBeeper (w : World) : Bool :=
  match w.bag with
  | none => true
  | some n => 0 < n

/-- What the robot senses. -/
def senses (w : World) : Sense → Bool
  | .frontClear => w.isClear w.robot.facing
  | .leftClear => w.isClear w.robot.facing.left
  | .rightClear => w.isClear w.robot.facing.right
  | .beepersPresent => 0 < w.countHere
  | .beepersInBag => w.bagHasBeeper
  | .facing d => w.robot.facing = d

/-- One step ahead, unless that way is closed. -/
def move (w : World) : Except FaultKind World :=
  if w.isClear w.robot.facing then
    .ok { w with robot := ⟨w.robot.cell.step w.robot.facing, w.robot.facing⟩ }
  else .error .blockedByWall

/-- The world with the robot turned to face another way. -/
def face (w : World) (d : Direction) : World :=
  { w with robot := ⟨w.robot.cell, d⟩ }

/-- One beeper from the bag onto the robot's cell, unless the bag is empty. -/
def putBeeper (w : World) : Except FaultKind World :=
  if w.bagHasBeeper then
    .ok { w with
      beepers := addCount w.robot.cell 1 w.beepers
      bag := w.bag.map (· - 1) }
  else .error .noBeeperToPutDown

/-- One beeper from the robot's cell into the bag, unless there is none. -/
def pickBeeper (w : World) : Except FaultKind World :=
  if 0 < w.countHere then
    .ok { w with
      beepers := removeOne w.robot.cell w.beepers
      bag := w.bag.map (· + 1) }
  else .error .noBeeperToPickUp

/-- The effect of a primitive action. -/
def perform (w : World) : Action → Except FaultKind World
  | .move => w.move
  | .turnLeft => .ok (w.face w.robot.facing.left)
  | .turnRight => .ok (w.face w.robot.facing.right)
  | .putBeeper => w.putBeeper
  | .pickBeeper => w.pickBeeper

/-- Result of a primitive action outside of a program, and the world after it. -/
def act (w : World) (a : Action) (line : Option Int) : StepResult × World :=
  match w.perform a with
  | .ok after => (.continued, after)
  | .error kind => (.faulted kind line, w)

end World

/-- The answer to a predicate. -/
def Predicate.eval (p : Predicate) (w : World) : Bool :=
  w.senses p.sense == p.expected

/-- The truth of a condition; the right part of a connective is looked at only if it decides. -/
def Condition.eval (w : World) : Condition → Bool
  | .predicate p _ => p.eval w
  | .not c _ => !c.eval w
  | .and l r _ => l.eval w && r.eval w
  | .or l r _ => l.eval w || r.eval w

end GridRobot
