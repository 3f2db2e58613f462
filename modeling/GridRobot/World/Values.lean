import GridRobot.World.Entry
import GridRobot.Yaml.Reader

/-!
# World files made of values

A world file may also be a mapping of values: `dimension` is a pair of numbers, `karel` the robot,
`walls` and `beepers` are lists, and `bag` is a number or a word.

## Main definitions

* `Values.readEntries` are the entries that the mapping stands for.
* `Values.read` is the description that a value gives, and `Values.readText` that of a text.

## Design notes

Everything that is wrong with a value is a format error, except for one number: infinity cannot be
cut to an integer at all. A number that is too long to be written is a bad value wherever it has to
be written. Values are looked at in the order size, robot, walls, beepers, bag.
-/

namespace GridRobot.Values

/-- The layout error that a misuse of a value is. -/
def ofMisuse : Value.Misuse → LayoutError
  | .missingKey key => .format ⟨.missingKey key, none⟩
  | .unusable problem => .format ⟨.badValue problem, none⟩
  | .broken b => .broken b

/-- A result about values as one about files. -/
def used {α : Type} (r : Except Value.Misuse α) : Except LayoutError α :=
  r.mapError ofMisuse

/-- The layout error of a value with a number that is too long to be written. -/
def unwritable : LayoutError :=
  ofMisuse (.unusable "a number too long to be written")

/-- The layout error of a cause, which is put into words while values are looked at. -/
def ofCause (c : FormatError.Cause) : LayoutError :=
  if c.isWritable then .format ⟨c, none⟩ else unwritable

/-- An entry that was made, as a result about files. -/
def made (r : Except FormatError.Cause Entry) : Except LayoutError Entry :=
  r.mapError ofCause

/-- The word for a direction that a value is. -/
def wordOf (v : Value) : Except LayoutError LooseText :=
  if v.isWritable then .ok v.asText else .error (.format ⟨.unwritableDirection, none⟩)

/-- The integer of a key that must be there. -/
def integerAt (key : String) (entries : List (Value × Value)) : Except LayoutError Int := do
  let v ← used (Value.require key entries)
  used v.toInteger

/-- The size of the world. -/
def dimensionOf (entries : List (Value × Value)) : Except LayoutError Entry := do
  let v ← used (Value.require "dimension" entries)
  match ← used v.parts with
  | [width, height] =>
    let w ← used width.toInteger
    let h ← used height.toInteger
    made (Entry.dimension? w h)
  | parts => .error (ofMisuse (.unusable (toString parts.length ++ " numbers instead of 2")))

/-- The robot, if something is said about it. -/
def robotOf (entries : List (Value × Value)) : Except LayoutError (List Entry) :=
  match Value.find? "karel" entries with
  | none => .ok []
  | some .null => .ok []
  | some v => do
    let fields ← used v.entries
    let x ← integerAt "x" fields
    let y ← integerAt "y" fields
    let facing ← wordOf ((Value.find? "direction" fields).getD (.text "east"))
    .ok [← made (Entry.robot? x y facing)]

/-- The wall that a value stands for. -/
def wallOf (v : Value) : Except LayoutError Entry := do
  let fields ← used v.entries
  let x ← integerAt "x" fields
  let y ← integerAt "y" fields
  let side ← wordOf (← used (Value.require "side" fields))
  made (Entry.wall? x y side)

/-- The beepers that a value stands for. -/
def beepersOf (v : Value) : Except LayoutError Entry := do
  let fields ← used v.entries
  let x ← integerAt "x" fields
  let y ← integerAt "y" fields
  let count ← used ((Value.find? "count" fields).getD (.int 1)).toInteger
  made (Entry.beepers? x y count)

/-- The items of a list that may be left out or empty. -/
def itemsOf (key : String) (entries : List (Value × Value)) : Except LayoutError (List Value) :=
  match Value.find? key entries with
  | none => .ok []
  | some v => if v.isTruthy then used v.parts else .ok []

/-- The bag, if something is said about it. -/
def bagOf (entries : List (Value × Value)) : Except LayoutError (List Entry) :=
  match Value.find? "bag" entries with
  | none => .ok []
  | some .null => .ok [.bag none]
  | some v =>
    if v.isWritable then do .ok [← made (Entry.bag? v.asText v.shown)]
    else .error unwritable

/-- The entries that a mapping stands for. -/
def readEntries (entries : List (Value × Value)) : Except LayoutError (List Entry) := do
  let dimension ← dimensionOf entries
  let robot ← robotOf entries
  let walls ← (← itemsOf "walls" entries).mapM wallOf
  let beepers ← (← itemsOf "beepers" entries).mapM beepersOf
  let bag ← bagOf entries
  .ok (dimension :: robot ++ walls ++ beepers ++ bag)

/-- The description that a value gives. -/
def read (defaultBag : Option Int) (v : Value) : Except LayoutError Description :=
  match v with
  | .map entries => do describe defaultBag (← readEntries entries)
  | _ => .error (.format ⟨.notMapping, none⟩)

/-- The description that a text gives. -/
def readText [Yaml.Reader] (defaultBag : Option Int) (text : String) :
    Except LayoutError Description :=
  match Yaml.Reader.ofText text with
  | .error .malformed => .error (.format ⟨.badYaml, none⟩)
  | .error (.broken b) => .error (.broken b)
  | .ok v => read defaultBag v

end GridRobot.Values
