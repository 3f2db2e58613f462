import GridRobot.Number.Double

/-!
# Shortest decimal text of a double

A double is written with the fewest significant digits that read back as the same double, and among
those with the digits nearest to its exact value.

## Main definitions

* `Shortest.digits` finds these digits and the power of ten they are to be multiplied by.
* `Shortest.Layout` says how digits are laid out, `Shortest.shown` lays a double out.

## Design notes

The numbers that read back as a double are those of an interval around it. Of the multiples of a
power of ten only the two neighbours of the exact value can be the nearest in the interval, so
trying these for one, two, … up to seventeen digits finds the answer in exact arithmetic.
-/

namespace GridRobot.Shortest

/-- A positive finite double between the ends of the numbers that read back as it; all three are
numerators over a common denominator. -/
structure Interval where
  low : Nat
  value : Nat
  high : Nat
  den : Nat
  /-- Do the ends themselves read back as the double? -/
  closed : Bool
  deriving Repr, DecidableEq

/-- The interval around a mantissa times a power of two. -/
def interval (mantissa : Nat) (exponent : Int) : Interval :=
  let below := if mantissa = Double.leastFull ∧ Double.leastExponent < exponent then 1 else 2
  let up := Nat.pow 2 (exponent - 2).toNat
  ⟨(4 * mantissa - below) * up, 4 * mantissa * up, (4 * mantissa + 2) * up,
    Nat.pow 2 (2 - exponent).toNat, mantissa % 2 == 0⟩

/-- Does `n` times a power of ten lie in the interval? -/
def Interval.holds (i : Interval) (n : Nat) (power : Int) : Bool :=
  let x := n * Nat.pow 10 power.toNat * i.den
  let scale := Nat.pow 10 (-power).toNat
  if i.closed then i.low * scale ≤ x && x ≤ i.high * scale
  else i.low * scale < x && x < i.high * scale

/-- Twice the distance from the value to `n` times a power of ten, in a common unit. -/
def Interval.distance (i : Interval) (n : Nat) (power : Int) : Nat :=
  let x := n * Nat.pow 10 power.toNat * i.den
  let v := i.value * Nat.pow 10 (-power).toNat
  (x - v) + (v - x)

/-- The multiple of a power of ten nearest to the value, if it lies in the interval. -/
def Interval.nearest? (i : Interval) (power : Int) : Option Nat :=
  let n := i.value * Nat.pow 10 (-power).toNat / (i.den * Nat.pow 10 power.toNat)
  match i.holds n power, i.holds (n + 1) power with
  | true, true =>
    let down := i.distance n power
    let up := i.distance (n + 1) power
    some (if down < up then n else if up < down then n + 1 else n + n % 2)
  | true, false => some n
  | false, true => some (n + 1)
  | false, false => none

/-- Power of ten of the first digit of a positive quotient. -/
def leadingPower (num den : Nat) : Int :=
  if den ≤ num then ((toString (num / den)).length : Int) - 1
  else -(((List.range 400).find? fun j => den ≤ num * Nat.pow 10 j).getD 400 : Nat)

/-- A number without the zeros at its end, and the power of ten it is multiplied by. -/
def stripZeros : Nat → Nat → Int → Nat × Int
  | 0, n, power => (n, power)
  | k + 1, n, power =>
    if n ≠ 0 ∧ n % 10 = 0 then stripZeros k (n / 10) (power + 1) else (n, power)

/-- The shortest digits of a positive finite double, and their power of ten. -/
def digits (mantissa : Nat) (exponent : Int) : Nat × Int :=
  let i := interval mantissa exponent
  let first := leadingPower i.value i.den
  let powers := (List.range 17).map fun (k : Nat) => first - (k : Int)
  let found := powers.findSome? fun power => (i.nearest? power).map fun n => (n, power)
  let (n, power) := found.getD (0, 0)
  stripZeros 20 n power

/-- How digits are laid out as text. -/
structure Layout where
  /-- Least power of ten of the first digit that is written without an exponent. -/
  leastPositional : Int
  /-- Least power of ten of the first digit that is written with an exponent again. -/
  leastScientific : Int
  /-- Least number of digits of an exponent. -/
  exponentDigits : Nat
  infinity : String
  notANumber : String
  deriving Repr, DecidableEq

/-- A point stands in every number from a ten-thousandth up to ten to the sixteenth; beyond, an
exponent of at least two digits follows. -/
def standard : Layout :=
  ⟨-4, 16, 2, "inf", "nan"⟩

/-- Digits with a point and, if the layout asks for it, an exponent. -/
def layOut (l : Layout) (n : Nat) (power : Int) : String :=
  let ds := (toString n).toList
  let first := power + (ds.length : Int) - 1
  if l.leastPositional ≤ first ∧ first < l.leastScientific then
    if 0 ≤ power then String.ofList (ds ++ List.replicate power.toNat '0') ++ ".0"
    else if 0 ≤ first then
      String.ofList (ds.take (first + 1).toNat) ++ "." ++ String.ofList (ds.drop (first + 1).toNat)
    else "0." ++ String.ofList (List.replicate (-first - 1).toNat '0' ++ ds)
  else
    let tail := ds.drop 1
    let exponent := (toString first.natAbs).toList
    String.ofList (ds.take 1) ++ (if tail.isEmpty then "" else "." ++ String.ofList tail) ++
      (if first < 0 then "e-" else "e+") ++
      String.ofList (List.replicate (l.exponentDigits - exponent.length) '0' ++ exponent)

/-- The shortest text of a double. -/
def shown (l : Layout) (x : Float) : String :=
  match Double.ofFloat x with
  | .nan => l.notANumber
  | .infinite negative => (if negative then "-" else "") ++ l.infinity
  | .finite negative mantissa exponent =>
    (if negative then "-" else "") ++
      (if mantissa = 0 then "0.0"
      else
        let (n, power) := digits mantissa exponent
        layOut l n power)

end GridRobot.Shortest
