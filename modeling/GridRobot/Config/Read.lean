import GridRobot.Config.Basic
import GridRobot.Files.Tree
import GridRobot.Text.Letter
import GridRobot.Yaml.Reader

/-!
# Reading configuration

A configuration is a mapping with the sections `timing`, `limits`, `world` and `canvas`. The last
two may be left out, and so may most settings of the last three.

## Main definitions

* `Config.ofEntries` is the configuration of a mapping.
* `Config.load` is the configuration in a file.
* `ConfigFailure` is the reason why there is none.

## Design notes

Settings are looked at in order; when several of them are bad, the first one is reported. Whether
they are in their range is looked at last. A relative directory of worlds is taken from the
directory of the configuration file.
-/

namespace GridRobot

/-- Why a configuration is not read. -/
inductive ConfigFailure where
  | error (e : ConfigError)
  /-- Reading the file, or using a value in it, breaks off. -/
  | broken (b : Breakdown)
  deriving Repr, DecidableEq

namespace Config

/-- The failure that a misuse of a value is. -/
def ofMisuse : Value.Misuse → ConfigFailure
  | .missingKey key => .error (.missingKey key)
  | .unusable problem => .error (.badSchema problem)
  | .broken b => .broken b

/-- A result about values as one about configurations. -/
def used {α : Type} (r : Except Value.Misuse α) : Except ConfigFailure α :=
  r.mapError ofMisuse

/-- The integer of a setting that must be there. -/
def required (key : String) (fields : List (Value × Value)) : Except ConfigFailure Int := do
  let v ← used (Value.require key fields)
  used v.toInteger

/-- The integer of a setting that has a default. -/
def optional (key : String) (default : Int) (fields : List (Value × Value)) :
    Except ConfigFailure Int :=
  match Value.find? key fields with
  | none => .ok default
  | some v => used v.toInteger

/-- The text of a setting that has a default. -/
def textOr (key default : String) (fields : List (Value × Value)) :
    Except ConfigFailure LooseText :=
  match Value.find? key fields with
  | none => .ok default
  | some v =>
    if v.isWritable then .ok v.asText
    else used (.error (.unusable "a number too long to be written"))

/-- The words for a bag without end. -/
def endless : List String :=
  ["infinite", "infinity"]

/-- A bag: a number, or without end. -/
def bagOf (v : Value) : Except ConfigFailure (Option Int) :=
  match v with
  | .null => .ok none
  | .text t =>
    if t.toString?.any fun s => endless.contains (String.ofList (Text.lowerCase s.toList)) then
      .ok none
    else (used v.toInteger).map some
  | v => (used v.toInteger).map some

/-- A section that may be left out. -/
def sectionOr (key : String) (raw : List (Value × Value)) :
    Except ConfigFailure (List (Value × Value)) :=
  match Value.find? key raw with
  | none => .ok []
  | some v => used v.entries

/-- The settings of a mapping in a configuration file, whatever their range. -/
def settings (file : Path) (raw : List (Value × Value)) : Except ConfigFailure Config := do
  let timing ← used (Value.require "timing" raw)
  let limits ← used (Value.require "limits" raw)
  let timing ← used timing.entries
  let heartbeatMs ← required "heartbeat_ms" timing
  let actionHeartbeats ← required "action_heartbeats" timing
  let refreshHeartbeats ← optional "refresh_heartbeats" 100 timing
  let limits ← used limits.entries
  let callDepth ← required "max_call_depth" limits
  let freeTurns ← required "max_free_ops_per_step" limits
  let nesting ← optional "max_nesting_depth" 100 limits
  let world ← sectionOr "world" raw
  let initialWorld ← textOr "initial_world" "15x15.w" world
  let worldsDir ← textOr "worlds_dir" "worlds" world
  let defaultBag ← bagOf ((Value.find? "default_bag" world).getD .null)
  let canvas ← sectionOr "canvas" raw
  let width ← optional "width" 370 canvas
  let height ← optional "height" 370 canvas
  .ok {
    timing := ⟨heartbeatMs, actionHeartbeats, refreshHeartbeats⟩
    limits := ⟨callDepth, freeTurns, nesting⟩
    world := ⟨initialWorld, file.parent.join (.ofText worldsDir), defaultBag⟩
    canvas := ⟨width, height⟩ }

/-- The configuration of a mapping in a configuration file. -/
def ofEntries (file : Path) (raw : List (Value × Value)) : Except ConfigFailure Config := do
  let c ← settings file raw
  c.checked.mapError .error

/-- The configuration that a value in a file describes. -/
def ofValue (file : Path) : Value → Except ConfigFailure Config
  | .map entries => ofEntries file entries
  | _ => .error (.error .notMapping)

/-- The configuration in a file. -/
def load [Yaml.Reader] (files : Files) (file : Path) : Except ConfigFailure Config :=
  match files.readData file with
  | .error (.file problem) => .error (.error (.badFile (problem.message file)))
  | .error (.broken b) => .error (.broken b)
  | .ok data =>
    match Yaml.Reader.ofFile data with
    | .error .malformed => .error (.error (.badFile "not a single well-formed document"))
    | .error (.broken b) => .error (.broken b)
    | .ok v => ofValue file v

end Config

end GridRobot
