import GridRobot.Clock.Watch
import GridRobot.Command.Run
import GridRobot.Yaml.Document

/-!
# The program

The command line of the simulator on a real machine: what it names is read from the disk, the
command is carried out on what was read, and its output is printed. An animation goes by the time
of the machine.

## Main definitions

* `gather` reads from the disk what a command may look at.
* `animate` shows a performance as time goes by.
* `main` is the program.
-/

namespace GridRobot

open scoped Yaml.Plain

/-- The place of the bundled files among the files of a command. -/
def bundleHome : Path :=
  .ofText "/.bundle"

/-- The files with what the disk has at a path, as far as it can be read. -/
def fetchFile (files : Files) (path : Path) : IO Files := do
  let some name := path.text.toString? | return files
  let place := System.mkFilePath [name]
  if ← place.isDir then return files.put path .empty
  match ← (IO.FS.readBinFile place).toBaseIO with
  | .ok data => return files.put path (.file (.bytes data))
  | .error (.permissionDenied ..) => return files.put path (.file .locked)
  | .error _ => return files

/-- The files with what the disk has in a directory. -/
def fetchDirectory (files : Files) (path : Path) : IO Files := do
  let some name := path.text.toString? | return files
  match ← (System.mkFilePath [name]).readDir.toBaseIO with
  | .error _ => return files
  | .ok entries =>
    entries.foldlM (fun files entry => fetchFile files (path.join (.ofText entry.fileName)))
      (files.put path .empty)

/-- The files with what the disk has at a path, unless there is something already. -/
def fetchMissing (files : Files) (path : Path) : IO Files :=
  match files.find path with
  | .ok _ => pure files
  | .error _ => fetchFile files path

/-- The files with what the disk has in the directory of a library, unless there is something
already. -/
def fetchLibrary (files : Files) (library : Library) : IO Files :=
  match library.directory with
  | none => pure files
  | some place =>
    match files.entryNames? place with
    | .ok none => fetchDirectory files place
    | _ => pure files

/-- What a command may look at: its configuration, the directory of its worlds, its world and its
program. -/
def gather (command : Command.Line) : IO Files := do
  let file := command.configFile bundleHome
  let files ← fetchMissing (Bundle.install bundleHome (Files.empty ["run"])) file
  let (directory, named) := match command with
    | .run s => (s.worldsDir, [s.world.getD "", s.program])
    | .worlds s => (s.worldsDir, [])
  let files ← match Config.load files file with
    | .error _ => pure files
    | .ok config => fetchLibrary files (Command.libraryFor config directory)
  (named.filter fun name => !name.isEmpty).foldlM
    (fun files (name : String) => fetchMissing files (.ofText name)) files

/-- The time of the machine in seconds. -/
def machineTime : IO Float := do
  return floatSeconds (← IO.monoMsNow)

/-- Prints the pictures of a performance that have not been printed. -/
def printFilm (p : Performance) : IO Performance := do
  match p.record.film with
  | none => return p
  | some film =>
    let out ← IO.getStdout
    out.putStr film.shown
    out.flush
    let fresh := { Film.blank film.clear with broken := film.broken }
    return { p with record := { p.record with film := some fresh } }

/-- Shows a performance as time goes by, until it ends or its actions have reached a number. -/
partial def animate (most : Int) (pacer : Pacer Float) (p : Performance) :
    IO (Except Breakdown Performance) := do
  let p ← printFilm p
  if p.record.film.any Film.broken then return .error .badNumber
  else if p.bench.animating && p.bench.steps < most then
    if let some delay := pacer.delay? (← machineTime) then
      IO.sleep (delay * 1000).toUInt32
    match pacer.due (← machineTime) with
    | .error b => return .error b
    | .ok beats => animate most (pacer.advance beats) (p.next (p.bench.tick beats))
  else return .ok p.leave

/-- A text as it is printed, with a mark for each half of a surrogate pair. -/
def printed (t : LooseText) : String :=
  String.ofList (t.points.map fun p => p.char?.getD '\ufffd')

/-- Prints an output and gives its status. -/
def printOutput (o : Command.Output) : IO UInt32 := do
  (← IO.getStdout).putStr (printed o.out)
  (← IO.getStderr).putStr (printed o.err)
  return UInt32.ofNat o.status

/-- Says that a command broke off. -/
def printFailure : IO UInt32 :=
  printOutput (.ofError 1 "A file or a number in it cannot be read")

/-- Carries out a performance as time goes by. -/
def runLive (config : Config) (stage : Command.Stage) : IO UInt32 := do
  let most := stage.most
  match stage.first.beginAnimation, Seconds.ofMilliseconds config.timing.heartbeatMs with
  | .ok (true, begun), .ok interval =>
    match ← animate most (Pacer.begin interval (← machineTime)) begun with
    | .error _ => printFailure
    | .ok last => printOutput (Command.verdict most "" last)
  | .ok (false, begun), _ => printOutput (Command.verdict most "" (← printFilm begun))
  | _, _ => printFailure

/-- Carries out a command. -/
def runCommand (command : Command.Line) : IO UInt32 := do
  let files ← gather command
  let scene : Command.Scene Float Float := ⟨files, bundleHome, .still, floatSeconds 0⟩
  let live := match command, Config.load files (command.configFile bundleHome) with
    | .run s, .ok config => if s.animate then some (s, config) else none
    | _, _ => none
  match live with
  | some (s, config) =>
    match Command.stage files config s with
    | .error _ => printFailure
    | .ok (.error o) => printOutput o
    | .ok (.ok ready) => runLive config ready
  | none =>
    match command.output scene with
    | .ok o => printOutput o
    | .error _ => printFailure

/-- How to use the program. -/
def usageText : String :=
  "usage: karel run PROGRAM [--world NAME] [--worlds-dir DIR] [--max-steps N] [--animate]\n" ++
  "                 [--config FILE] [-v]\n" ++
  "       karel worlds [--worlds-dir DIR] [--config FILE] [-v]\n"

end GridRobot

/-- The program. -/
def main (words : List String) : IO UInt32 := do
  match GridRobot.Command.Line.read words with
  | .ok command => GridRobot.runCommand command
  | .error .help =>
    (← IO.getStdout).putStr GridRobot.usageText
    return 0
  | .error .wrong =>
    (← IO.getStderr).putStr GridRobot.usageText
    return 2
