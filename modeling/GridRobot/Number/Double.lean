/-!
# Doubles as exact numbers

A finite double is a whole number times a power of two. Seen so, doubles can be read from exact
quotients, cut to whole numbers and divided with remainder without any rounding but the one that is
asked for.

## Main definitions

* `Double` is a double taken apart: not a number, infinite, or an exact finite value.
* `Double.ofFloat` takes a double apart.
* `nearestDouble` is the double nearest to a quotient; of two equally near ones, the even one.
* `Double.truncate?` is the whole part of a finite double.
* `Double.remainder` is the exact remainder of a division that rounds to zero.
-/

namespace GridRobot

/-- A double taken apart; a finite one is the mantissa times two to the exponent. -/
inductive Double where
  | nan
  | infinite (negative : Bool)
  | finite (negative : Bool) (mantissa : Nat) (exponent : Int)
  deriving Repr, DecidableEq

namespace Double

/-- Least mantissa of a double in full precision. -/
def leastFull : Nat := Nat.pow 2 52

/-- Exponent of the doubles nearest to zero. -/
def leastExponent : Int := -1074

/-- Greatest exponent of a finite double in full precision. -/
def greatestExponent : Int := 971

/-- A double taken apart. -/
def ofFloat (x : Float) : Double :=
  let bits := x.toBits.toNat
  let negative := bits / Nat.pow 2 63 == 1
  let power : Nat := bits / Nat.pow 2 52 % Nat.pow 2 11
  let fraction : Nat := bits % Nat.pow 2 52
  if power = 2047 then (if fraction = 0 then infinite negative else nan)
  else if power = 0 then finite negative fraction leastExponent
  else finite negative (leastFull + fraction) ((power : Int) - 1075)

/-- The double of a sign and the sixty-three bits below it. -/
def packed (negative : Bool) (bits : Nat) : Float :=
  Float.ofBits (UInt64.ofNat ((if negative then Nat.pow 2 63 else 0) + bits))

/-- The double whose mantissa has full precision, or whose exponent is the least one. -/
def assemble (negative : Bool) (mantissa : Nat) (exponent : Int) : Float :=
  if mantissa < leastFull then packed negative mantissa
  else if greatestExponent < exponent then packed negative (2047 * leastFull)
  else packed negative ((exponent + 1075).toNat * leastFull + (mantissa - leastFull))

/-- The whole number nearest to a quotient; of two equally near ones, the even one. -/
def quotientToEven (num den : Nat) : Nat :=
  let q := num / den
  let r := num % den
  if 2 * r < den then q else if den < 2 * r then q + 1 else q + q % 2

/-- Numerator and denominator of a quotient divided by a power of two. -/
def scaled (num den : Nat) (exponent : Int) : Nat × Nat :=
  if 0 ≤ exponent then (num, den * Nat.pow 2 exponent.toNat)
  else (num * Nat.pow 2 (-exponent).toNat, den)

/-- Exponent of the doubles in whose range a positive quotient lies. -/
def exponentFor (num den : Nat) : Int :=
  let guess := (num.log2 : Int) - den.log2 - 52
  let (n, d) := scaled num den guess
  max leastExponent (if n / d < leastFull then guess - 1 else guess)

end Double

/-- The double nearest to the quotient of two whole numbers, with a sign. -/
def nearestDouble (negative : Bool) (num den : Nat) : Float :=
  if num = 0 then Double.packed negative 0
  else
    let exponent := Double.exponentFor num den
    let (n, d) := Double.scaled num den exponent
    let mantissa := Double.quotientToEven n d
    if mantissa = 2 * Double.leastFull then
      Double.assemble negative Double.leastFull (exponent + 1)
    else Double.assemble negative mantissa exponent

/-- The double nearest to a whole number times a power of ten. -/
def decimalDouble (negative : Bool) (digits : Nat) (exponent : Int) : Float :=
  let magnitude := ((toString digits).length : Int) + exponent
  if digits = 0 || magnitude < -400 then Double.packed negative 0
  else if 400 < magnitude then Double.packed negative (2047 * Double.leastFull)
  else if 0 ≤ exponent then nearestDouble negative (digits * Nat.pow 10 exponent.toNat) 1
  else nearestDouble negative digits (Nat.pow 10 (-exponent).toNat)

/-- The double nearest to an integer. -/
def integerDouble (n : Int) : Float :=
  nearestDouble (n < 0) n.natAbs 1

/-- The double nearest to an integer, unless the integer is too great for a finite one. -/
def integerDouble? (n : Int) : Option Float :=
  let x := integerDouble n
  match Double.ofFloat x with
  | .finite _ _ _ => some x
  | _ => none

namespace Double

/-- The whole part of a finite double. -/
def truncate? : Double → Option Int
  | nan => none
  | infinite _ => none
  | finite negative mantissa exponent =>
    let (n, d) := scaled mantissa 1 (-exponent)
    let whole := n / d
    some (if negative then -(whole : Int) else whole)

/-- The double that was taken apart, as an exact number rounded once. -/
def toFloat : Double → Float
  | nan => packed false (2047 * leastFull + Nat.pow 2 51)
  | infinite negative => packed negative (2047 * leastFull)
  | finite negative mantissa exponent =>
    let (n, d) := scaled mantissa 1 (-exponent)
    nearestDouble negative n d

/-- The exact remainder of the division of `a` by `b`, with the sign of `a`; there is none of an
infinite number or by zero. -/
def remainder (a b : Double) : Double :=
  match a, b with
  | finite negative m e, finite _ n f =>
    if n = 0 then nan
    else
      let low := min e f
      finite negative (m * Nat.pow 2 (e - low).toNat % (n * Nat.pow 2 (f - low).toNat)) low
  | finite negative m e, infinite _ => finite negative m e
  | _, _ => nan

end Double

end GridRobot
