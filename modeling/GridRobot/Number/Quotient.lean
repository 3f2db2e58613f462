import GridRobot.Breakdown
import GridRobot.Number.Double

/-!
# Whole quotients of doubles

How many times one double lies in another.

## Main definitions

* `wholeQuotient` is a quotient rounded down, computed so that no whole number is lost to the
  rounding of the division.
-/

namespace GridRobot

/-- The remainder of the division of two doubles, which is exact. -/
def floatRemainder (a b : Float) : Float :=
  (Double.remainder (.ofFloat a) (.ofFloat b)).toFloat

/-- The quotient of two doubles rounded down, for a positive divisor: the remainder is taken away
first, so that the division comes out at a whole number or next to it. -/
def wholeQuotient (a b : Float) : Float :=
  let m := floatRemainder a b
  let d := (a - m) / b
  let d := if m < 0 then d - 1 else d
  let f := d.floor
  if d - f > 0.5 then f + 1 else f

/-- The whole part of a double, or zero for a negative one; only a finite double has any. -/
def wholePart (x : Float) : Except Breakdown Nat :=
  match Double.ofFloat x with
  | .nan => .error .badNumber
  | .infinite _ => .error .tooGreat
  | d => .ok (d.truncate?.getD 0).toNat

end GridRobot
