import GridRobot.Files.Tree

/-!
# Bundled files

The program comes with a configuration file and some worlds, which it uses unless it is told
otherwise.

## Main definitions

* `Bundle.install` puts the bundled files into a directory.
* `Bundle.configFile` is the bundled configuration in that directory.
-/

namespace GridRobot.Bundle

/-- A text of some lines. -/
def text (lines : List String) : String :=
  "\n".intercalate lines

/-- The bundled configuration. -/
def config : String :=
  text [
    "# Runtime configuration for the Karel simulator.",
    "",
    "timing:",
    "  # Wall-clock interval between two heartbeats.",
    "  heartbeat_ms: 8",
    "  # Heartbeats per executed program step.",
    "  action_heartbeats: 1",
    "  # Heartbeats between full redraws of an idle canvas.",
    "  refresh_heartbeats: 100",
    "",
    "limits:",
    "  max_call_depth: 1000",
    "  max_free_ops_per_step: 100000",
    "  # Deepest allowed nesting of blocks and condition operators.",
    "  max_nesting_depth: 100",
    "",
    "world:",
    "  initial_world: 15x15.w",
    "  # Relative paths are resolved against this file's directory.",
    "  worlds_dir: worlds/files",
    "  # Beepers in Karel's bag when a world file does not say; \"infinite\" for no limit.",
    "  default_bag: infinite",
    "",
    "canvas:",
    "  width: 370",
    "  height: 370",
    ""]

/-- A row of beepers along the bottom street. -/
def beeperLine : String :=
  text [
    "// A row of beepers along the bottom street.",
    "Dimension: (6, 3)",
    "Beeper: (2, 1) 1",
    "Beeper: (3, 1) 2",
    "Beeper: (5, 1) 1",
    "Karel: (1, 1) east",
    "BeeperBag: 0",
    ""]

/-- A house with a newspaper in front of its door. -/
def collectNewspaper : String :=
  text [
    "Dimension: (7, 5)",
    "Wall: (3, 3) north",
    "Wall: (5, 3) north",
    "Wall: (3, 3) west",
    "Wall: (3, 2) west",
    "Wall: (5, 2) south",
    "Wall: (5, 4) east",
    "Wall: (4, 2) south",
    "Wall: (5, 3) east",
    "Wall: (3, 2) south",
    "Wall: (4, 3) north",
    "Wall: (5, 2) east",
    "Beeper: (6, 3) 1",
    "Karel: (3, 4) east",
    "BeeperBag: INFINITY",
    "Speed: 1.00",
    ""]

/-- Columns of beepers with gaps to be repaired. -/
def stoneMason : String :=
  text [
    "# Columns of beepers with gaps for Karel to repair.",
    "dimension: [9, 5]",
    "karel: \x7bx: 1, y: 1, direction: east\x7d",
    "beepers:",
    "  - \x7bx: 1, y: 1\x7d",
    "  - \x7bx: 1, y: 3\x7d",
    "  - \x7bx: 5, y: 2\x7d",
    "  - \x7bx: 5, y: 5\x7d",
    "  - \x7bx: 9, y: 1\x7d",
    "  - \x7bx: 9, y: 4\x7d",
    "bag: infinite"]

/-- The bundled files, by their paths in the directory they are put into. -/
def files : List (String × String) :=
  [("config.yaml", config),
   ("worlds/files/beeper_line.w", beeperLine),
   ("worlds/files/collect_newspaper.w", collectNewspaper),
   ("worlds/files/stone_mason.yaml", stoneMason)]

/-- The bundled configuration in the directory of the bundled files. -/
def configFile (home : Path) : Path :=
  home.join (.ofText "config.yaml")

/-- Puts the bundled files into a directory. -/
def install (home : Path) (f : Files) : Files :=
  files.foldl (fun f (name, content) => f.write (home.join (.ofText name)) content) f

end GridRobot.Bundle
