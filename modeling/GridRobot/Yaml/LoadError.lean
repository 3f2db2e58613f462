import GridRobot.Breakdown

/-!
# Failures to read YAML text
-/

namespace GridRobot.Yaml

/-- Why a text has no value. -/
inductive LoadError where
  /-- The text is said not to be a single well-formed document. -/
  | malformed
  /-- Something in the text breaks off the reading of it. -/
  | broken (b : Breakdown)
  deriving Repr, DecidableEq

end GridRobot.Yaml
