/-!
# Breakdowns

A request that goes wrong normally ends with an error that says so in words. A few things are beyond
that: the request breaks off, and all that is known is of which kind the breakdown was.

## Main definitions

* `Breakdown` is a kind of breakdown.
-/

namespace GridRobot

/-- Why a request breaks off without an error of its own. -/
inductive Breakdown where
  /-- The bytes of a file are not UTF-8. -/
  | undecodable
  /-- A number has more digits than are read or written, or a date is not in the calendar. -/
  | badNumber
  /-- A number is too great to be turned into another kind of number. -/
  | tooGreat
  /-- A name on the way to a file is longer than names of files can be. -/
  | nameTooLong
  /-- A file is to be read whose name holds a character that no name of a file has. -/
  | badName
  /-- The name of a file cannot be written in UTF-8. -/
  | unencodable
  /-- A setting was emptied that is needed. -/
  | missingValue
  /-- Collections of values are nested too deep to be read. -/
  | tooDeep
  deriving Repr, DecidableEq

end GridRobot
