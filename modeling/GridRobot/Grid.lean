import GridRobot.Text.Blank
import GridRobot.Text.Letter

/-!
# Cells and directions

The robot lives on a grid of cells. The cell (0, 0) is the south-west corner, north is up the
second coordinate and east is up the first.

## Main definitions

* `Cell` is a place of the grid.
* `Direction` is one of the four ways to face.
* `Cell.step` is the neighbouring cell in a direction.
* `Direction.ofWord?` reads a direction written as a word or a letter.
* `Wall` is a side of a cell that cannot be crossed.
-/

namespace GridRobot

/-- The four directions, clockwise from north. -/
inductive Direction where
  | north
  | east
  | south
  | west
  deriving Repr, DecidableEq

namespace Direction

/-- All directions, clockwise from north. -/
def all : List Direction :=
  [north, east, south, west]

/-- Change of the first coordinate in one step. -/
def dx : Direction → Int
  | north => 0
  | east => 1
  | south => 0
  | west => -1

/-- Change of the second coordinate in one step. -/
def dy : Direction → Int
  | north => 1
  | east => 0
  | south => -1
  | west => 0

/-- A quarter turn to the left. -/
def left : Direction → Direction
  | north => west
  | west => south
  | south => east
  | east => north

/-- A quarter turn to the right. -/
def right : Direction → Direction
  | north => east
  | east => south
  | south => west
  | west => north

/-- The opposite direction. -/
def opposite (d : Direction) : Direction :=
  d.left.left

/-- Name of a direction in capitals. -/
def name : Direction → String
  | north => "NORTH"
  | east => "EAST"
  | south => "SOUTH"
  | west => "WEST"

/-- Place of a direction in the clockwise order from north. -/
def rank : Direction → Nat
  | north => 0
  | east => 1
  | south => 2
  | west => 3

/-- The direction that a word in capitals, or its first letter, stands for. -/
def ofCapitals? (word : String) : Option Direction :=
  all.find? fun d => word == d.name || word == String.ofList (d.name.toList.take 1)

/-- The direction written in a text, in any letter case and with blanks around it. -/
def ofWord? (word : String) : Option Direction :=
  ofCapitals? (String.ofList (Text.upperCase (Text.trim word.toList)))

@[simp] theorem left_right (d : Direction) : d.right.left = d := by cases d <;> rfl

@[simp] theorem right_left (d : Direction) : d.left.right = d := by cases d <;> rfl

@[simp] theorem opposite_opposite (d : Direction) : d.opposite.opposite = d := by
  cases d <;> rfl

@[simp] theorem dx_opposite (d : Direction) : d.opposite.dx = -d.dx := by cases d <;> rfl

@[simp] theorem dy_opposite (d : Direction) : d.opposite.dy = -d.dy := by cases d <;> rfl

end Direction

/-- A place of the grid; whether it lies inside a world depends on the world's size. -/
structure Cell where
  x : Int
  y : Int
  deriving Repr, DecidableEq

namespace Cell

/-- The neighbouring cell in a direction. -/
def step (c : Cell) (d : Direction) : Cell :=
  ⟨c.x + d.dx, c.y + d.dy⟩

/-- Cells are listed from west to east, and from south to north within a column. -/
def before (a b : Cell) : Bool :=
  a.x < b.x || (a.x == b.x && a.y < b.y)

@[simp] theorem step_opposite (c : Cell) (d : Direction) : (c.step d).step d.opposite = c := by
  cases c
  simp only [step, Direction.dx_opposite, Direction.dy_opposite, mk.injEq]
  omega

end Cell

/-- The side of a cell that faces in a direction, closed by a wall. -/
structure Wall where
  cell : Cell
  side : Direction
  deriving Repr, DecidableEq

namespace Wall

/-- The same wall, seen from the cell on its other side. -/
def flip (w : Wall) : Wall :=
  ⟨w.cell.step w.side, w.side.opposite⟩

/-- Walls are listed by cell, and clockwise from north around one cell. -/
def before (a b : Wall) : Bool :=
  a.cell.before b.cell || (a.cell == b.cell && a.side.rank < b.side.rank)

@[simp] theorem flip_flip (w : Wall) : w.flip.flip = w := by
  cases w; simp [flip]

end Wall

/-- Insertion into a list that is kept in the order `before`; an element that is there already is
not put in twice. -/
def insertInOrder {α : Type} [DecidableEq α] (before : α → α → Bool) (a : α) : List α → List α
  | [] => [a]
  | b :: rest =>
    if a = b then b :: rest
    else if before a b then a :: b :: rest
    else b :: insertInOrder before a rest

theorem mem_insertInOrder {α : Type} [DecidableEq α] {before : α → α → Bool} {a b : α}
    {l : List α} : b ∈ insertInOrder before a l ↔ b = a ∨ b ∈ l := by
  induction l with
  | nil => simp [insertInOrder]
  | cons c rest ih =>
    by_cases hac : a = c
    · subst hac
      simp [insertInOrder]
    · by_cases hb : before a c = true
      · simp [insertInOrder, hac, hb]
      · simp only [insertInOrder, hac, hb, if_false, List.mem_cons, ih, Bool.false_eq_true]
        grind

end GridRobot
