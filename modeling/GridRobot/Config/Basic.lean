import GridRobot.ErrorClass
import GridRobot.Files.Path
import GridRobot.Run.Machine

/-!
# Configuration

What can be set about the program: its pace, the bounds of runs and texts, the world it begins with
and the size of its canvas.

## Main definitions

* `Config` holds all settings.
* `Config.problem?` is the first setting that is out of its range, if there is one.
* `ConfigError` is what is wrong with a configuration.
-/

namespace GridRobot

/-- The pace: length of a heartbeat, heartbeats for a step, and heartbeats between redraws. -/
structure Timing where
  heartbeatMs : Int
  actionHeartbeats : Int
  refreshHeartbeats : Int
  deriving Repr, DecidableEq

/-- Bounds of runs and of program texts. -/
structure Bounding where
  callDepth : Int
  freeTurns : Int
  nesting : Int
  deriving Repr, DecidableEq

/-- The world to begin with, where worlds are looked for, and the bag that worlds have if they do
not say. -/
structure WorldSettings where
  initialWorld : LooseText
  worldsDir : Path
  defaultBag : Option Int
  deriving Repr, DecidableEq

/-- Size of the canvas. -/
structure Canvas where
  width : Int
  height : Int
  deriving Repr, DecidableEq

/-- All settings. -/
structure Config where
  timing : Timing
  limits : Bounding
  world : WorldSettings
  canvas : Canvas
  deriving Repr, DecidableEq

/-- What is wrong with a configuration. -/
inductive ConfigError where
  /-- A setting is out of its range. -/
  | setting (key message : String)
  | missingKey (key : String)
  | badSchema (problem : String)
  | badFile (problem : String)
  | notMapping
  deriving Repr, DecidableEq

namespace ConfigError

/-- An error in words. -/
def message : ConfigError → String
  | setting key m => configurationMessage key m
  | missingKey key => whole ("Missing required config key: " ++ Text.quote key)
  | badSchema problem => whole ("Invalid config schema: " ++ problem)
  | badFile problem => whole ("Failed to parse config: " ++ problem)
  | notMapping => whole "Config file must contain a mapping"
where
  /-- A message about the configuration as a whole. -/
  whole (m : String) : String :=
    let (key, text) := configurationParts (some m) none
    configurationMessage key text

end ConfigError

namespace Config

/-- The error of a setting that has to be positive, if it is not. -/
def notPositive? (key : String) (n : Int) : Option ConfigError :=
  if n ≤ 0 then some (.setting key "must be positive") else none

/-- The error of a bag that holds fewer than no beepers. -/
def bagProblem? : Option Int → Option ConfigError
  | none => none
  | some n =>
    if n < 0 then some (.setting "world.default_bag" "must be >= 0 or 'infinite'") else none

/-- The error of a canvas without room. -/
def canvasProblem? (c : Canvas) : Option ConfigError :=
  if c.width ≤ 0 ∨ c.height ≤ 0 then
    some (.setting "canvas" "width and height must be positive")
  else none

/-- The first setting that is out of its range. -/
def problem? (c : Config) : Option ConfigError :=
  [notPositive? "timing.heartbeat_ms" c.timing.heartbeatMs,
   notPositive? "timing.action_heartbeats" c.timing.actionHeartbeats,
   notPositive? "timing.refresh_heartbeats" c.timing.refreshHeartbeats,
   notPositive? "limits.max_call_depth" c.limits.callDepth,
   notPositive? "limits.max_free_ops_per_step" c.limits.freeTurns,
   notPositive? "limits.max_nesting_depth" c.limits.nesting,
   bagProblem? c.world.defaultBag,
   canvasProblem? c.canvas].findSome? id

/-- The settings, if all of them are in their range. -/
def checked (c : Config) : Except ConfigError Config :=
  match c.problem? with
  | none => .ok c
  | some e => .error e

/-- The bounds of runs. -/
def runLimits (c : Config) : Limits :=
  ⟨c.limits.callDepth.toNat, c.limits.freeTurns.toNat⟩

end Config

end GridRobot
