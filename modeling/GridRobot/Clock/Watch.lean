import GridRobot.Clock.Pacer
import GridRobot.Number.Quotient

/-!
# Times as doubles

The arithmetic of times that a watch shows in seconds.
-/

namespace GridRobot

/-- A number of milliseconds in seconds. -/
def floatSeconds (milliseconds : Int) : Float :=
  integerDouble milliseconds / integerDouble 1000

/-- Times in seconds as doubles; each operation is rounded once. -/
instance : Seconds Float where
  ofMilliseconds n := if (integerDouble? n).isSome then .ok (floatSeconds n) else .error .tooGreat
  zero := floatSeconds 0
  add := (· + ·)
  sub := (· - ·)
  times n interval := integerDouble n * interval
  isPositive x := 0 < x
  wholeIntervals behind interval := wholePart (wholeQuotient behind interval)

end GridRobot
