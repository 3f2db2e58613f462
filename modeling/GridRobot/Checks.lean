import GridRobot.Command.Reading
import GridRobot.Files.Tree

/-!
# Quality checks

The quality checks run a fixed list of tools, one after the other, and tell which of them failed.

## Main definitions

* `Check.all` lists the checks.
* `CheckSettings.read` reads the command line.
* `Check.report?` is what is printed, and the status.
-/

namespace GridRobot

/-- A check, by the word that skips it: its title, the command it runs, and the one that mends. -/
structure Check where
  key : String
  title : String
  command : List String
  mending : Option (List String)
  deriving Repr, DecidableEq

/-- What running a tool comes to. -/
inductive ToolRun where
  | missing
  /-- The tool is there, and running it is not allowed. -/
  | denied
  | ended (status : Int) (out err : String)
  deriving Repr, DecidableEq

/-- Settings of the checks. -/
structure CheckSettings where
  /-- Are the mending commands to be run where there are any? -/
  mend : Bool
  /-- Is the output of a tool to be held back, unless it fails? -/
  quiet : Bool
  skipped : List String
  deriving Repr, DecidableEq

namespace Check

/-- The packages that are checked. -/
def packages : List String :=
  ["karel", "karel_gui"]

/-- The directory of the tests. -/
def testsDir : String := "tests"

/-- The packages and the tests. -/
def sources : List String :=
  packages ++ [testsDir]

/-- The checks, in the order in which they are run. -/
def all : List Check := [
  ⟨"formatting", "Black", "black" :: "--check" :: sources, some ("black" :: sources)⟩,
  ⟨"imports", "isort", "isort" :: "--check-only" :: sources, some ("isort" :: sources)⟩,
  ⟨"lint", "Pylint", "pylint" :: packages, none⟩,
  ⟨"type", "Mypy", ["mypy", "karel"], none⟩,
  ⟨"deadcode", "Vulture", "vulture" :: packages, none⟩,
  ⟨"complexity", "Radon", ["radon", "cc", "karel", "-a"], none⟩,
  ⟨"tests", "Pytest + Coverage",
    ["pytest", "--cov=karel", "--cov-report=term-missing", testsDir], none⟩]

/-- A line across the page. -/
def rule : String :=
  String.ofList (List.replicate 70 '=')

/-- The command that a check runs. -/
def commandFor (c : Check) (mend : Bool) : List String :=
  if mend then c.mending.getD c.command else c.command

/-- The lines above what a check prints. -/
def heading (c : Check) (command : List String) : String :=
  "\n" ++ rule ++ "\n> " ++ c.title ++ ": " ++ " ".intercalate command ++ "\n" ++ rule ++ "\n"

/-- What a tool printed, with one kind of line end. -/
def printed (s : String) : String :=
  String.ofList (Text.unifyNewlines s.toList)

/-- What a check prints below its heading, and whether it passed, if its tool could be run or is
missing. -/
def result? (c : Check) (s : CheckSettings) (tool : String) : ToolRun → Option (String × Bool)
  | .missing => some ("FAILED " ++ c.title ++ ": " ++ FileProblem.missing.message (.ofText tool) ++
      "\n   Install the tools with: pip install -e .[dev,test]\n", false)
  | .denied => none
  | .ended status out err =>
    if status = 0 then some ("ok " ++ c.title ++ "\n", true)
    else
      let held := if s.quiet then printed out ++ "\n" ++ printed err ++ "\n" else ""
      some (held ++ "FAILED " ++ c.title ++ "\n", false)

/-- Runs some checks: what they print, and the titles of those that failed. There is no answer when
a tool may not be run. -/
def runAll? (s : CheckSettings) (tool : String → List String → ToolRun) :
    List Check → Option (String × List String)
  | [] => some ("", [])
  | c :: rest =>
    if s.skipped.contains c.key then runAll? s tool rest
    else do
      let command := c.commandFor s.mend
      let name := command.headD ""
      let (text, passed) ← c.result? s name (tool name (command.drop 1))
      let (more, failed) ← runAll? s tool rest
      some (c.heading command ++ text ++ more, if passed then failed else c.title :: failed)

/-- What the checks print, and the status with which they end. -/
def report? (s : CheckSettings) (tool : String → List String → ToolRun) :
    Option (String × Nat) := do
  let (text, failed) ← runAll? s tool all
  let closing := "\n" ++ rule ++ "\n"
  if failed.isEmpty then some (text ++ closing ++ "All checks passed\n", 0)
  else some (text ++ closing ++ "Failed: " ++ ", ".intercalate failed ++ "\n", 1)

end Check

namespace CheckSettings

/-- The command line of the checks. -/
def grammar : Command.Grammar CheckSettings where
  switches := [
    Command.Grammar.help,
    Command.Grammar.flag ["--fix"] fun s => { s with mend := true },
    Command.Grammar.flag ["--quiet", "-q"] fun s => { s with quiet := true },
    ⟨["--skip"], .several, fun keys s =>
      if keys.all fun k => (Check.all.map Check.key).contains k then .ok { s with skipped := keys }
      else .error .wrong⟩]
  place := none

/-- Reads the command line of the checks. -/
def read (line : List String) : Except Command.Ending CheckSettings :=
  grammar.read ⟨false, false, []⟩ line

end CheckSettings

end GridRobot
