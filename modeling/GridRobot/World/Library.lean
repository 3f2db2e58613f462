import GridRobot.ErrorClass
import GridRobot.Files.Tree
import GridRobot.World.Format

/-!
# Libraries of worlds

Worlds are asked for by name. A name is a path to a world file, the name of one in the library's
directory, or the size of a blank world, such as `15x15.w`.

## Main definitions

* `Library` is where worlds are looked for, and the bag of those that do not say.
* `Library.resolve` is the file that a name stands for.
* `Library.load` is the description of a named world, `LoadFailure` the reason why there is none.
* `Library.names` lists the worlds of the library's directory.
-/

namespace GridRobot

/-- Where worlds are looked for besides their names taken as paths, and the bag of those that do
not say. -/
structure Library where
  directory : Option Path
  defaultBag : Option Int
  deriving Repr, DecidableEq

/-- Why a named world is not loaded, as it is reported to whoever asked. -/
inductive LoadError where
  | notFound (name : LooseText)
  | unreadable (name : LooseText) (problem : FileProblem) (path : Path)
  | unsupported (name suffix : LooseText)
  | format (e : FormatError)
  deriving Repr, DecidableEq

namespace LoadError

/-- A load error in words. -/
def message : LoadError → LooseText
  | notFound name => worldLoadMessage name none
  | unreadable name problem path => worldLoadMessage name (problem.message path : LooseText)
  | unsupported name suffix =>
    worldLoadMessage name ("unsupported world format '" ++ suffix ++ "'" : LooseText)
  | format e => e.message

/-- The class of errors to which a load error belongs. -/
def errorClass : LoadError → ErrorClass
  | format _ => .worldFormat
  | _ => .worldLoad

end LoadError

/-- Why a named world is not loaded. -/
inductive LoadFailure where
  | error (e : LoadError)
  /-- Looking for the file, or reading it, breaks off. -/
  | broken (b : Breakdown)
  deriving Repr, DecidableEq

namespace Library

/-- The first of some paths that names a file. -/
def firstFile? (files : Files) : List Path → Except Breakdown (Option Path)
  | [] => .ok none
  | p :: rest => do if ← files.isFile p then .ok (some p) else firstFile? files rest

/-- The file that a name stands for, if there is one. -/
def resolve (l : Library) (files : Files) (name : LooseText) : Except Breakdown (Option Path) :=
  let direct := Path.ofText name
  firstFile? files (direct :: (l.directory.map (·.join direct)).toList)

/-- The written width and height in the name of a blank world. -/
def blankSize? (name : String) : Option (List Char × List Char) :=
  let cs := name.toList
  let width := cs.takeWhile Text.isDigit
  match cs.dropWhile Text.isDigit with
  | 'x' :: rest =>
    let height := rest.takeWhile Text.isDigit
    let ending := rest.dropWhile Text.isDigit
    if width.isEmpty || height.isEmpty then none
    else if ending = ['.', 'w'] ∨ ending = ['.', 'w', '\n'] then some (width, height)
    else none
  | _ => none

/-- A failure to read a world's text as the failure to load it. -/
def ofLayoutError : LayoutError → LoadFailure
  | .format e => .error (.format e)
  | .broken b => .broken b

/-- The description of a blank world of a written size. -/
def blank (l : Library) (width height : List Char) : Except LoadFailure Description :=
  (Lines.read l.defaultBag
    ("Dimension: (" ++ String.ofList width ++ ", " ++ String.ofList height ++ ")")).mapError
    ofLayoutError

/-- The format that a file's ending stands for; a file without ending is made of lines. -/
def format? (suffix : LooseText) : Option WorldFormat :=
  suffix.toString?.bind fun s =>
    let ending := String.ofList (Text.lowerCase (s.toList.dropWhile (· = '.')))
    WorldFormat.ofName? (if ending.isEmpty then "w" else ending)

/-- A description that was read, if its size can be noted: the numbers must be short enough to be
written. -/
def noted (d : Description) : Except LoadFailure Description :=
  if Text.isWritable d.width && Text.isWritable d.height then .ok d
  else .error (.broken .badNumber)

/-- The description in a world file that a name stands for. -/
def loadFile [Yaml.Reader] (l : Library) (files : Files) (name : LooseText) (path : Path) :
    Except LoadFailure Description :=
  match files.readText path with
  | .error (.file problem) => .error (.error (.unreadable name problem path))
  | .error (.broken b) => .error (.broken b)
  | .ok text =>
    match format? path.suffix with
    | none => .error (.error (.unsupported name path.suffix))
    | some format => do noted (← (readWorldAs format l.defaultBag text).mapError ofLayoutError)

/-- The description of a named world. -/
def load [Yaml.Reader] (l : Library) (files : Files) (name : LooseText) :
    Except LoadFailure Description :=
  match l.resolve files name with
  | .error b => .error (.broken b)
  | .ok (some path) => l.loadFile files name path
  | .ok none =>
    match name.toString?.bind blankSize? with
    | some (width, height) => l.blank width height
    | none => .error (.error (.notFound name))

/-- Endings of the names of world files. -/
def endings : List String :=
  [".w", ".yaml", ".yml"]

/-- Does a name end like the name of a world file? -/
def isWorldName (name : LooseText) : Bool :=
  (Path.suffixOf name).toString?.any fun ending =>
    endings.contains (String.ofList (Text.lowerCase ending.toList))

/-- Names in the library's directory that end like those of world files, in order. -/
def names (l : Library) (files : Files) : Except Breakdown (List LooseText) := do
  let found ← match l.directory with
    | none => .ok none
    | some directory => files.entryNames? directory
  .ok (((found.getD []).filter isWorldName).mergeSort fun a b => !b.before a)

end Library

end GridRobot
