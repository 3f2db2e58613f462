import GridRobot.Config.Read

/-!
# Remembered configurations

A configuration file is read once and remembered, under the place where the file is.

## Main definitions

* `ConfigCache` is what is remembered, and how many configurations have been made.
* `ConfigCache.load` reads a file, whether it is remembered or not.
* `ConfigCache.get` reads a file that is not remembered.

## Design notes

Every configuration that is made gets a number, so that two configurations can be told apart even
when they have equal settings. A failure is not remembered.
-/

namespace GridRobot

/-- A configuration and its number. -/
structure NumberedConfig where
  number : Nat
  config : Config
  deriving Repr, DecidableEq

/-- The remembered configurations, by the absolute paths of their files. -/
structure ConfigCache where
  made : Nat
  entries : List (Path × NumberedConfig)
  deriving Repr, DecidableEq

namespace ConfigCache

/-- Nothing is remembered. -/
def empty : ConfigCache :=
  ⟨0, []⟩

/-- Forgets everything; numbers go on. -/
def clear (c : ConfigCache) : ConfigCache :=
  { c with entries := [] }

/-- Reads a file. -/
def load [Yaml.Reader] (c : ConfigCache) (files : Files) (file : Path) :
    Except ConfigFailure NumberedConfig × ConfigCache :=
  match Config.load files file with
  | .error e => (.error e, c)
  | .ok config => (.ok ⟨c.made, config⟩, { c with made := c.made + 1 })

/-- The place of a file, under which it is remembered. It is found name by name, so the first name
that no file can have breaks this off. -/
def keyOf (files : Files) (file : Path) : Except Breakdown Path :=
  match file.firstDefect? with
  | some b => .error b
  | none => .ok (Path.absolute files.directory file)

/-- Reads a file, unless it is remembered. -/
def get [Yaml.Reader] (c : ConfigCache) (files : Files) (file : Path) :
    Except ConfigFailure NumberedConfig × ConfigCache :=
  match keyOf files file with
  | .error b => (.error (.broken b), c)
  | .ok key =>
    match c.entries.lookup key with
    | some known => (.ok known, c)
    | none =>
      match c.load files file with
      | (.error e, after) => (.error e, after)
      | (.ok made, after) => (.ok made, { after with entries := (key, made) :: after.entries })

end ConfigCache

end GridRobot
