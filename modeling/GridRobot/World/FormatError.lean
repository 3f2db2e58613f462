import GridRobot.Breakdown
import GridRobot.Text.Integer
import GridRobot.Text.Quoted

/-!
# Errors in world descriptions

What can be wrong with the description of a world, whether it was read from a file or put together
by a program.

## Main definitions

* `FormatError.Cause` is what is wrong, and `FormatError` a cause with a line of a file.
* `FormatError.message` says it in words.
* `LayoutError` is what comes of telling it, which needs numbers that are short enough to be written.
-/

namespace GridRobot

/-- What is wrong with a world description. -/
inductive FormatError.Cause where
  | sizeNotPositive (width height : Int)
  | robotOutside (x y : Int)
  | beeperOutside (x y : Int)
  | countNegativeAt (x y : Int)
  | bagNegative
  | dimensionNotPositive (width height : Int)
  | countNegative (count : Int)
  | unknownDirection (word : LooseText)
  | badBag (shown : String)
  | badPoint (found : String)
  | badCount (found : String)
  | unreadableLine (found : String)
  | unknownEntry (key : String)
  | missingDimension
  | badYaml
  | notMapping
  | missingKey (key : String)
  | badValue (problem : String)
  /-- A direction was given by a number that is too long to be written. -/
  | unwritableDirection
  deriving Repr, DecidableEq

namespace FormatError.Cause

/-- A point in parentheses. -/
def point (x y : Int) : String :=
  "(" ++ toString x ++ ", " ++ toString y ++ ")"

/-- A cause in words. -/
def message : FormatError.Cause → LooseText
  | sizeNotPositive width height =>
    "dimensions must be positive, got " ++ toString width ++ "x" ++ toString height
  | robotOutside x y => "Karel at " ++ point x y ++ " is outside the grid"
  | beeperOutside x y => "beeper at " ++ point x y ++ " is outside the grid"
  | countNegativeAt x y => "beeper count at " ++ point x y ++ " must be >= 0"
  | bagNegative => "beeper bag must be >= 0"
  | dimensionNotPositive width height =>
    "dimensions must be positive, got " ++ point width height
  | countNegative count => "beeper count must be >= 0, got " ++ toString count
  | unknownDirection word => "Unknown direction '" ++ word ++ "'"
  | badBag shown => "invalid beeper bag " ++ shown
  | badPoint found => "expected '(x, y)', got " ++ Text.quote found
  | badCount found => "invalid beeper count " ++ Text.quote found
  | unreadableLine found => "cannot parse " ++ Text.quote found
  | unknownEntry key => "unknown entry '" ++ key ++ "'"
  | missingDimension => "missing dimension"
  | badYaml => "invalid YAML: not a single well-formed document"
  | notMapping => "world file must contain a mapping"
  | missingKey key => "missing key " ++ Text.quote key
  | badValue problem => "invalid value: " ++ problem
  | unwritableDirection =>
    "Exceeds the limit (" ++ toString Text.maxDigits ++ " digits) for integer string conversion; "
      ++ "use sys.set_int_max_str_digits() to increase the limit"

/-- The numbers that a cause tells of. -/
def numbers : FormatError.Cause → List Int
  | sizeNotPositive width height => [width, height]
  | robotOutside x y => [x, y]
  | beeperOutside x y => [x, y]
  | countNegativeAt x y => [x, y]
  | dimensionNotPositive width height => [width, height]
  | countNegative count => [count]
  | _ => []

/-- Can a cause be put into words? Its numbers must not be too long. -/
def isWritable (c : FormatError.Cause) : Bool :=
  c.numbers.all Text.isWritable

end FormatError.Cause

/-- What is wrong with a world description, and the line of the file that says so. -/
structure FormatError where
  cause : FormatError.Cause
  line : Option Nat
  deriving Repr, DecidableEq

/-- Message about a world description, with a line where one is known. -/
def invalidWorldMessage (reason : LooseText) (line : Option Int) : LooseText :=
  "Invalid world: " ++ (match line with
    | none => reason
    | some n => "line " ++ toString n ++ ": " ++ reason)

/-- The full message of a format error. -/
def FormatError.message (e : FormatError) : LooseText :=
  invalidWorldMessage e.cause.message (e.line.map Int.ofNat)

/-- Why there is no world of a layout, or no layout in a text. -/
inductive LayoutError where
  /-- A rule of worlds, or of world files, is broken. -/
  | format (e : FormatError)
  /-- What was to be read, or to be told, breaks off. -/
  | broken (b : Breakdown)
  deriving Repr, DecidableEq

/-- A format error, if it can be put into words. -/
def LayoutError.ofFormat (e : FormatError) : LayoutError :=
  if e.cause.isWritable then format e else broken .badNumber

end GridRobot
