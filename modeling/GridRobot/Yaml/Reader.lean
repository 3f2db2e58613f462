import GridRobot.Value.Basic
import GridRobot.Yaml.LoadError

/-!
# Readers of YAML

Configurations and some worlds are written in YAML. It is read by a library that is no part of the
simulator, so nothing is said here about what a text means: whatever is done with a file is done with
the answers of some reader.

## Main definitions

* `Yaml.Reader` is a library that reads YAML.

## Design notes

A reader may be done with a file before it comes to bytes that are not UTF-8, so it is given the bytes
of a file and not its text. An answer is a tree of values: collections that hold themselves, and kinds
of values for which a text has to ask by a tag, are not among the answers.
-/

namespace GridRobot.Yaml

/-- A library that reads YAML. -/
class Reader where
  /-- What comes of a text. -/
  ofText : String → Except LoadError Value
  /-- What comes of a file with these bytes that is opened as a text in UTF-8. -/
  ofFile : ByteArray → Except LoadError Value

end GridRobot.Yaml
