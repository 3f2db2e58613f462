import GridRobot.Files.Path
import GridRobot.Text.Blank
import GridRobot.Text.Quoted

/-!
# Files

The files that a program can see: a tree of directories below the root, and the directory in which
the program runs.

## Main definitions

* `FileNode` is a file or a directory, and `Files` is everything that can be seen.
* `Files.find` finds what a path names.
* `Files.readText` reads the text of a file, and `Files.readData` its bytes.
* `Files.write` and `Files.remove` change the files.

## Design notes

A path is followed name by name, so `..` after the name of a file is an error, as any other name
would be, and a name is too long only where it is looked up. Names are told apart by their bytes.
Text is UTF-8, and every kind of line end in it is read as a line feed.
-/

namespace GridRobot

/-- What a file holds. -/
inductive FileContent where
  | bytes (data : ByteArray)
  /-- The file is there, and reading it is not allowed. -/
  | locked

/-- A file, or a directory with its entries in order of creation. -/
inductive FileNode where
  | file (content : FileContent)
  | directory (entries : List (LooseText × FileNode))

/-- Why a path cannot be read. -/
inductive FileProblem where
  | missing
  | notDirectory
  | isDirectory
  | denied
  | nameTooLong
  deriving Repr, DecidableEq

namespace FileProblem

/-- A problem with a path in words, after its number. -/
def message (problem : FileProblem) (path : Path) : String :=
  (match problem with
    | missing => "[Errno 2] No such file or directory: "
    | notDirectory => "[Errno 20] Not a directory: "
    | isDirectory => "[Errno 21] Is a directory: "
    | denied => "[Errno 13] Permission denied: "
    | nameTooLong => "[Errno 36] File name too long: ") ++ path.text.quote

end FileProblem

namespace FileNode

/-- The directory without entries. -/
def empty : FileNode :=
  .directory []

/-- Do two texts name the same entry of a directory? -/
def sameName (s t : LooseText) : Bool :=
  s.bytes? == t.bytes?

/-- What a directory has under a name; a file has nothing. -/
def entry? (n : FileNode) (name : LooseText) : Option FileNode :=
  match n with
  | .directory entries => (entries.find? fun e => sameName e.1 name).map (·.2)
  | .file _ => none

/-- Is it a directory? -/
def isDirectory : FileNode → Bool
  | .directory _ => true
  | .file _ => false

/-- Names of the entries of a directory. -/
def names? : FileNode → Option (List LooseText)
  | .directory entries => some (entries.map (·.1))
  | .file _ => none

/-- The directory with something under a name, in the place of what was there. -/
def setEntry (n : FileNode) (name : LooseText) (child : FileNode) : FileNode :=
  match n with
  | .file _ => .directory [(name, child)]
  | .directory entries =>
    if entries.any fun e => sameName e.1 name then
      .directory (entries.map fun e => if sameName e.1 name then (e.1, child) else e)
    else .directory (entries ++ [(name, child)])

/-- The directory with something at the end of a way; directories on the way are made. -/
def put (n : FileNode) (way : List LooseText) (child : FileNode) : FileNode :=
  match way with
  | [] => child
  | name :: rest => n.setEntry name (((n.entry? name).getD empty).put rest child)

/-- The directory without what is at the end of a way. -/
def drop (n : FileNode) (way : List LooseText) : FileNode :=
  match way, n with
  | [], n => n
  | [name], .directory entries => .directory (entries.filter fun e => !sameName e.1 name)
  | name :: rest, n =>
    match n.entry? name with
    | some child => n.setEntry name (child.drop rest)
    | none => n

/-- Follows a way from the innermost of some nested directories. -/
def follow : List FileNode → List LooseText → Except FileProblem FileNode
  | [], _ => .error .missing
  | here :: _, [] => .ok here
  | here :: above, name :: rest =>
    if !here.isDirectory then .error .notDirectory
    else if name = ".." then follow (if above.isEmpty then [here] else above) rest
    else if Path.greatestNameLength < Path.byteSize name then .error .nameTooLong
    else match here.entry? name with
      | some child => follow (child :: here :: above) rest
      | none => .error .missing

end FileNode

/-- The files that a program can see, and the way from the root to the directory it runs in. -/
structure Files where
  root : FileNode
  current : List LooseText

namespace Files

/-- Nothing but a directory to run in. -/
def empty (current : List LooseText) : Files :=
  ⟨FileNode.empty.put current .empty, current⟩

/-- The directory in which the program runs. -/
def directory (f : Files) : Path :=
  ⟨.root, f.current⟩

/-- What a path names. -/
def find (f : Files) (p : Path) : Except FileProblem FileNode :=
  if Path.greatestLength < Path.byteSize p.text then .error .nameTooLong
  else FileNode.follow [f.root] (if p.isAbsolute then p.parts else f.current ++ p.parts)

/-- What a path names, if it names anything; only a name that is too long keeps this from being
known. -/
def lookUp (f : Files) (p : Path) : Except Breakdown (Option FileNode) :=
  if p.defect?.isSome then .ok none
  else match f.find p with
    | .ok n => .ok (some n)
    | .error .nameTooLong => .error .nameTooLong
    | .error _ => .ok none

/-- Does a path name a file? -/
def isFile (f : Files) (p : Path) : Except Breakdown Bool :=
  (f.lookUp p).map fun n => n.any fun n => !n.isDirectory

/-- Names of the entries of the directory that a path names, if it names one. -/
def entryNames? (f : Files) (p : Path) : Except Breakdown (Option (List LooseText)) :=
  (f.lookUp p).map fun n => n.bind FileNode.names?

/-- The bytes of the file that a path names. -/
def readBytes (f : Files) (p : Path) : Except FileProblem ByteArray :=
  match f.find p with
  | .error problem => .error problem
  | .ok (.directory _) => .error .isDirectory
  | .ok (.file .locked) => .error .denied
  | .ok (.file (.bytes data)) => .ok data

/-- Why a file has no text that can be read. -/
inductive ReadError where
  | file (problem : FileProblem)
  /-- The bytes of the file are no text, or no file can have the path. -/
  | broken (b : Breakdown)
  deriving Repr, DecidableEq

/-- What reading a file makes of its bytes. -/
def readWith {α : Type} (f : Files) (p : Path) (make : ByteArray → Except Breakdown α) :
    Except ReadError α :=
  match p.defect?, f.readBytes p with
  | some b, _ => .error (.broken b)
  | none, .error problem => .error (.file problem)
  | none, .ok data => (make data).mapError .broken

/-- The text that some bytes are. -/
def decode? (data : ByteArray) : Option String :=
  (String.fromUTF8? data).map fun s => String.ofList (Text.unifyNewlines s.toList)

/-- The text of the file that a path names. -/
def readText (f : Files) (p : Path) : Except ReadError String :=
  f.readWith p fun data =>
    match decode? data with
    | some s => .ok s
    | none => .error .undecodable

/-- The bytes of the file that a path names, for whoever reads them. -/
def readData (f : Files) (p : Path) : Except ReadError ByteArray :=
  f.readWith p .ok

/-- The way from the root that a path means. -/
def way (f : Files) (p : Path) : List LooseText :=
  (Path.absolute f.directory p).parts

/-- The files with something at a path; directories on the way are made. -/
def put (f : Files) (p : Path) (n : FileNode) : Files :=
  { f with root := f.root.put (f.way p) n }

/-- The files with a text at a path. -/
def write (f : Files) (p : Path) (content : String) : Files :=
  f.put p (.file (.bytes content.toUTF8))

/-- The files without what is at a path. -/
def remove (f : Files) (p : Path) : Files :=
  { f with root := f.root.drop (f.way p) }

end Files

end GridRobot
