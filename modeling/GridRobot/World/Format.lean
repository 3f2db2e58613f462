import GridRobot.World.Lines
import GridRobot.World.Values

/-!
# Formats of world files

## Main definitions

* `WorldFormat.ofName?` is the format of a name.
* `readWorldAs` reads a text in a format, `readWorld?` in a format given by its name.
-/

namespace GridRobot

/-- The two formats of world files. -/
inductive WorldFormat where
  | lines
  | values
  deriving Repr, DecidableEq

namespace WorldFormat

/-- The format of a name, which is also the ending of file names. -/
def ofName? (name : String) : Option WorldFormat :=
  if name == "yaml" || name == "yml" then some values
  else if name == "w" then some lines
  else none

end WorldFormat

/-- What is said about a name of which there is no format. -/
def unknownFormatMessage (name : String) : String :=
  "Unknown world format '" ++ name ++ "'"

/-- The description that a text in a format gives. -/
def readWorldAs [Yaml.Reader] (format : WorldFormat) (defaultBag : Option Int) (text : String) :
    Except LayoutError Description :=
  match format with
  | .lines => Lines.read defaultBag text
  | .values => Values.readText defaultBag text

/-- The description that a text in a format, given by its name, gives, if there is such a format. -/
def readWorld? [Yaml.Reader] (name : String) (defaultBag : Option Int) (text : String) :
    Option (Except LayoutError Description) :=
  (WorldFormat.ofName? name).map fun format => readWorldAs format defaultBag text

end GridRobot
