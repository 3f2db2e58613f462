import GridRobot.Source.Error
import GridRobot.World.FormatError

/-!
# Classes of errors

The errors that are reported to callers form a small hierarchy: whoever handles a class handles all
classes below it.

## Main definitions

* `ErrorClass` is a class of errors, and `ErrorClass.ancestors` are the classes above it.
* `configurationMessage`, `worldLoadMessage` and `noWorldMessage` word the errors of three classes.
-/

namespace GridRobot

/-- Classes of reported errors. -/
inductive ErrorClass where
  | general
  | configuration
  | compile
  | worldFormat
  | worldLoad
  | scheduler
  | worldNotLoaded
  deriving Repr, DecidableEq

namespace ErrorClass

/-- All classes. -/
def all : List ErrorClass :=
  [general, configuration, compile, worldFormat, worldLoad, scheduler, worldNotLoaded]

/-- The classes above a class, nearest first. -/
def ancestors : ErrorClass → List ErrorClass
  | general => []
  | worldNotLoaded => [scheduler, general]
  | _ => [general]

end ErrorClass

/-- The key that a configuration error is about, and its message. A lone text is the message; it
may be missing, and an empty one says nothing. -/
def configurationParts (key message : Option String) : String × String :=
  match message with
  | some m => (key.getD "configuration", m)
  | none =>
    let m := key.getD ""
    ("configuration", if m.isEmpty then "Invalid configuration" else m)

/-- Message about a configuration key. -/
def configurationMessage (key message : String) : String :=
  "Configuration error for '" ++ key ++ "': " ++ message

/-- Message about a world that cannot be loaded. -/
def worldLoadMessage (world : LooseText) (reason : Option LooseText) : LooseText :=
  "Could not load world '" ++ world ++ "': " ++ reason.getD "world not found"

/-- Message about a run that is asked for while there is no world. -/
def noWorldMessage (message : Option String) : String :=
  match message with
  | none => "No world is loaded yet"
  | some m => if m.isEmpty then "No world is loaded yet" else m

end GridRobot
