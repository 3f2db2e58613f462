import GridRobot.Text.Split
import GridRobot.Yaml.Timestamp

/-!
# Plain scalars of YAML text

A plain scalar may be a number, a timestamp, a truth value or nothing at all; what fits none of
these forms is text.

## Main definitions

* `Yaml.Scalar` is what a plain scalar is.
* `Yaml.readInt?` and `Yaml.readFloat?` recognise the written forms of numbers.
* `Yaml.ofPlain` decides what a plain scalar is.

## Design notes

Integers are decimal, binary after `0b`, octal after `0`, hexadecimal after `0x`, or written to
base sixty with colons. Floating-point numbers need a point, and a sign before their exponent.
Underscores between digits are skipped. A number of a known form may still have no value: no digits
but underscores, more decimal digits than are read, or more parts to base sixty than fit a double.
-/

namespace GridRobot.Yaml

/-- What a plain scalar is. -/
inductive Scalar where
  | value (v : Value)
  /-- The key that stands for all entries of another mapping. -/
  | merge
  /-- The key that stands for a default value. -/
  | default
  /-- A number or timestamp without a value. -/
  | broken (b : Breakdown)

/-- Words for truth values. -/
def truthWords : List (String × Bool) :=
  [("yes", true), ("Yes", true), ("YES", true), ("no", false), ("No", false), ("NO", false),
   ("true", true), ("True", true), ("TRUE", true), ("false", false), ("False", false),
   ("FALSE", false), ("on", true), ("On", true), ("ON", true), ("off", false), ("Off", false),
   ("OFF", false)]

/-- Words for nothing at all. -/
def nullWords : List String :=
  ["", "~", "null", "Null", "NULL"]

/-- A sign, if there is one, and the rest: is the sign a minus? -/
def splitSign : List Char → Bool × List Char
  | '-' :: rest => (true, rest)
  | '+' :: rest => (false, rest)
  | cs => (false, cs)

/-- A text without its underscores. -/
def dropGroups (cs : List Char) : List Char :=
  cs.filter (· ≠ '_')

/-- Value of a digit up to base sixteen. -/
def digitIn? (base : Nat) (c : Char) : Option Nat :=
  let v :=
    if c.isDigit then c.toNat - 48
    else if 'a' ≤ c ∧ c ≤ 'f' then c.toNat - 87
    else if 'A' ≤ c ∧ c ≤ 'F' then c.toNat - 55
    else base
  if v < base then some v else none

/-- Is a text made of digits of a base and underscores, with at least one of them? -/
def isGrouped (base : Nat) (cs : List Char) : Bool :=
  !cs.isEmpty && cs.all fun c => c == '_' || (digitIn? base c).isSome

/-- Is a text a decimal digit, followed by digits and underscores? -/
def isDecimal (cs : List Char) : Bool :=
  cs.head?.any Char.isDigit && isGrouped 10 cs

/-- The number that digits of a base denote, if there are any. -/
def numberIn (base : Nat) (cs : List Char) : Option Nat :=
  let ds := dropGroups cs
  if ds.isEmpty then none
  else some (ds.foldl (fun n c => base * n + (digitIn? base c).getD 0) 0)

/-- The number that decimal digits denote, if they are not too many. -/
def decimal? (cs : List Char) : Option Nat :=
  (Text.readDigits (dropGroups cs)).toOption

/-- Is a text a number below sixty in one or two digits? -/
def isSixtieth (cs : List Char) : Bool :=
  match cs with
  | [c] => c.isDigit
  | [c, d] => '0' ≤ c && c ≤ '5' && d.isDigit
  | _ => false

/-- The number that parts to base sixty denote, the greatest first. -/
def sexagesimal? (parts : List (List Char)) : Option Nat :=
  parts.foldl (fun n cs => do some (60 * (← n) + (← decimal? cs))) (some 0)

/-- A whole number without sign: `none` if the text has no form of one, and otherwise its value
where it has one. -/
def readMagnitude? (cs : List Char) : Option (Option Nat) :=
  match cs with
  | ['0'] => some (some 0)
  | '0' :: 'b' :: ds => if isGrouped 2 ds then some (numberIn 2 ds) else none
  | '0' :: 'x' :: ds => if isGrouped 16 ds then some (numberIn 16 ds) else none
  | '0' :: ds => if isGrouped 8 ds then some (numberIn 8 ('0' :: ds)) else none
  | cs =>
    match Text.splitAt ':' cs with
    | [ds] => if isDecimal ds then some (decimal? ds) else none
    | first :: others =>
      if isDecimal first && others.all isSixtieth then some (sexagesimal? (first :: others))
      else none
    | [] => none

/-- An integer: `none` if the text has no form of one, and otherwise its value if it has one. -/
def readInt? (cs : List Char) : Option (Except Breakdown Value) :=
  let (negative, magnitude) := splitSign cs
  (readMagnitude? magnitude).map fun value =>
    match value with
    | some n => .ok (.int (if negative then -(n : Int) else n))
    | none => .error .badNumber

/-- The value of decimal digits with a point and an exponent. -/
def decimalFloat (negative : Bool) (whole fraction : List Char) (exponent : Int) : Float :=
  let f := dropGroups fraction
  decimalDouble negative (Text.digitsValue (dropGroups whole ++ f)) (exponent - f.length)

/-- A fraction with or without an exponent, which needs a sign: digits and exponent. -/
def splitExponent? (cs : List Char) : Option (List Char × Int) :=
  let fraction := cs.takeWhile fun c => c.isDigit || c == '_'
  match cs.drop fraction.length with
  | [] => some (fraction, 0)
  | e :: sign :: ds =>
    if (e == 'e' || e == 'E') && (sign == '-' || sign == '+') && !ds.isEmpty &&
        ds.all Char.isDigit then
      let n : Int := Text.digitsValue ds
      some (fraction, if sign == '-' then -n else n)
    else none
  | _ => none

/-- Sum of floating-point parts to base sixty, from the least part on, as long as the base of a part
is not too great. -/
def sexagesimalSum : List Float → Nat → Float → Option Float
  | [], _, total => some total
  | x :: rest, base, total => do
    sexagesimalSum rest (60 * base) (total + x * (← integerDouble? base))

/-- A floating-point number with a point, without its sign; one to base sixty may be too great. -/
def readPointed? (negative : Bool) (cs : List Char) : Option (Except Breakdown Float) :=
  let whole := cs.takeWhile (· ≠ '.')
  let fraction := (cs.drop whole.length).drop 1
  if whole.length = cs.length then none
  else match Text.splitAt ':' whole with
    | [ds] =>
      if isDecimal ds then
        (splitExponent? fraction).map fun (f, exponent) => .ok (decimalFloat negative ds f exponent)
      else none
    | first :: others =>
      if isDecimal first && others.all isSixtieth &&
          fraction.all (fun c => c.isDigit || c == '_') then
        let exact := (first :: others.dropLast).map fun ds => decimalFloat false ds [] 0
        let last := decimalFloat false (others.getLast?.getD []) fraction 0
        match sexagesimalSum (last :: exact.reverse) 1 (integerDouble 0) with
        | some total => some (.ok (if negative then -total else total))
        | none => some (.error .tooGreat)
      else none
    | [] => none

/-- A floating-point number, if the text has the form of one. -/
def readFloat? (cs : List Char) : Option (Except Breakdown Float) :=
  let (negative, magnitude) := splitSign cs
  if [".inf", ".Inf", ".INF"].contains (String.ofList magnitude) then
    some (.ok (Double.infinite negative).toFloat)
  else if [".nan", ".NaN", ".NAN"].contains (String.ofList cs) then some (.ok Double.nan.toFloat)
  else match cs with
    | '.' :: fraction =>
      if isDecimal (fraction.take 1) then
        (splitExponent? fraction).map fun (f, exponent) => .ok (decimalFloat false [] f exponent)
      else none
    | _ => readPointed? negative magnitude

/-- A number or timestamp, if the text has the form of one. -/
def readExact? (cs : List Char) : Option (Except Breakdown Value) :=
  ((readFloat? cs).map fun r => r.map Value.float).or ((readInt? cs).or (readTimestamp? cs))

/-- What is left when a plain scalar is nothing more special: a mark of a mapping, or text. -/
def ofWord (word : String) : Scalar :=
  if word == "<<" then .merge else if word == "=" then .default else .value (.text word)

/-- What a plain scalar is. -/
def ofPlain (cs : List Char) : Scalar :=
  let word := String.ofList cs
  if nullWords.contains word then .value .null
  else match truthWords.lookup word, readExact? cs with
    | some b, _ => .value (.bool b)
    | none, some (.ok v) => .value v
    | none, some (.error b) => .broken b
    | none, none => ofWord word

end GridRobot.Yaml
