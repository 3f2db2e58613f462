import GridRobot.Breakdown
import GridRobot.Text.Loose
import GridRobot.Text.Split

/-!
# Paths

A path names a file or directory by the names on the way to it. Empty names and `.` say nothing and
are left out; `..` is kept, since what it means depends on the files.

## Main definitions

* `Path` is a path, `Path.ofText` reads one and `Path.text` writes it.
* `Path.join`, `Path.parent`, `Path.name` and `Path.suffix` take paths together and apart.
* `Path.absolute` is the path from the root that a path means in a directory.
* `Path.defect?` says why no file can have a path, whatever files there are, and
  `Path.firstDefect?` says so of the first name on the way that no file can have.
* `Path.byteSize` is the length of a text on the way to a file.

## Design notes

A path that begins with exactly two slashes is told from one that begins with one slash; more than
two count as one. Names are loose texts, since a name that is read from a file can be one.
-/

namespace GridRobot

/-- Where a path begins. -/
inductive Anchor where
  | here
  | root
  | doubleRoot
  deriving Repr, DecidableEq

/-- A place to begin and the names on the way. -/
structure Path where
  anchor : Anchor
  parts : List LooseText
  deriving Repr, DecidableEq

namespace Path

/-- Where the path of a text begins. -/
def anchorOf (s : LooseText) : Anchor :=
  match (s.points.takeWhile (· = .char '/')).length with
  | 0 => .here
  | 2 => .doubleRoot
  | _ => .root

/-- The path that a text writes. -/
def ofText (s : LooseText) : Path :=
  ⟨anchorOf s, ((Text.splitAt (.char '/') s.points).map .mk).filter fun p => p ≠ "" && p ≠ "."⟩

/-- The beginning of a path as text. -/
def anchorText : Anchor → String
  | .here => ""
  | .root => "/"
  | .doubleRoot => "//"

/-- A path as text. -/
def text (p : Path) : LooseText :=
  if p.anchor = .here ∧ p.parts = [] then "."
  else anchorText p.anchor ++ LooseText.join "/" p.parts

/-- Does a path begin at the root? -/
def isAbsolute (p : Path) : Bool :=
  p.anchor ≠ .here

/-- A path taken from the end of another one; an absolute one replaces it. -/
def join (p q : Path) : Path :=
  if q.isAbsolute then q else ⟨p.anchor, p.parts ++ q.parts⟩

/-- The path without its last name. -/
def parent (p : Path) : Path :=
  ⟨p.anchor, p.parts.dropLast⟩

/-- The last name of a path, empty if there is none. -/
def name (p : Path) : LooseText :=
  p.parts.getLast?.getD ""

/-- The ending of a name, from its last point on; a point at the beginning or end makes none. -/
def suffixOf (name : LooseText) : LooseText :=
  let ps := name.points
  let ending := (ps.reverse.takeWhile (· ≠ .char '.')).reverse
  if ending.isEmpty || ending.length + 1 ≥ ps.length then "" else ⟨.char '.' :: ending⟩

/-- The ending of a path's last name. -/
def suffix (p : Path) : LooseText :=
  suffixOf p.name

/-- Names on the way after going up where a name says so. -/
def resolveParts (parts : List LooseText) : List LooseText :=
  (parts.foldl (fun stack (p : LooseText) =>
    if p = ".." then stack.drop 1 else p :: stack) []).reverse

/-- The path from the root that a path means in a directory, without `..`. -/
def absolute (directory p : Path) : Path :=
  ⟨.root, resolveParts (directory.join p).parts⟩

/-- Why a text can be part of no path of a file: it has a character that names of files do not
have. -/
def textDefect? (t : LooseText) : Option Breakdown :=
  if t.bytes?.isNone then some .unencodable
  else if t.points.contains (.char (Char.ofNat 0)) then some .badName
  else none

/-- Why a path can be that of no file. -/
def defect? (p : Path) : Option Breakdown :=
  textDefect? p.text

/-- Why a path can be that of no file, if the names on the way are looked at one by one. -/
def firstDefect? (p : Path) : Option Breakdown :=
  p.parts.findSome? textDefect?

/-- Number of bytes of a text on the way to a file. -/
def byteSize (t : LooseText) : Nat :=
  (t.bytes?.getD []).length

/-- Greatest number of bytes of a path. -/
def greatestLength : Nat := 4095

/-- Greatest number of bytes of a name. -/
def greatestNameLength : Nat := 255

end Path

end GridRobot
