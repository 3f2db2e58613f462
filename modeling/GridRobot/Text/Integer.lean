import GridRobot.Text.Blank
import GridRobot.Text.Digit

/-!
# Written integers

How an integer is written in files, options and configuration values: blank space around it, an
optional sign, decimal digits of any script, and single underscores between digits.

## Main definitions

* `readInteger cs` is the integer written by the whole of `cs`.
* `readDigits cs` is the number that a non-empty row of digits denotes.
* `isWritable n` says that `n` is short enough to be written in decimal digits.

## Design notes

A number of more than `maxDigits` digits is refused, so reading takes a bounded amount of work.
Leading zeros count as digits, underscores do not. The same bound holds for writing; a longer number
can still arise, from digits of another base or by counting on.

The four separators U+001C to U+001F, although they are white space, may not stand around an
integer.
-/

namespace GridRobot.Text

/-- Longest number, in digits, that is read or written. -/
def maxDigits : Nat := 4300

/-- Why a text is not read as an integer. -/
inductive IntegerError where
  /-- The text is not a written integer. -/
  | malformed
  /-- The number has more than `maxDigits` digits. -/
  | tooLong
  deriving Repr, DecidableEq

/-- The number that a row of digits denotes, unless it is too long. -/
def readDigits (cs : List Char) : Except IntegerError Nat :=
  if cs.length ≤ maxDigits then .ok (digitsValue cs) else .error .tooLong

/-- Digits of a number in which single underscores may stand between two digits. -/
def groupedDigits? : List Char → Option (List Char)
  | [] => none
  | [c] => if isDigit c then some [c] else none
  | c :: '_' :: rest => if isDigit c then (groupedDigits? rest).map (c :: ·) else none
  | c :: rest => if isDigit c then (groupedDigits? rest).map (c :: ·) else none

/-- An integer without surrounding blanks. -/
def readTrimmed (cs : List Char) : Except IntegerError Int :=
  let magnitude (ds : List Char) : Except IntegerError Nat :=
    match groupedDigits? ds with
    | none => .error .malformed
    | some digits => readDigits digits
  match cs with
  | '-' :: rest => (magnitude rest).map fun n => -(n : Int)
  | '+' :: rest => (magnitude rest).map Int.ofNat
  | _ => (magnitude cs).map Int.ofNat

/-- Characters that may stand around an integer: white space without the separators. -/
def isPadding (c : Char) : Bool :=
  isBlank c && !(0x1C ≤ c.toNat && c.toNat ≤ 0x1F)

/-- The integer written by the whole of a text. -/
def readInteger (cs : List Char) : Except IntegerError Int :=
  readTrimmed ((cs.dropWhile isPadding).reverse.dropWhile isPadding).reverse

/-- Is an integer short enough to be written in decimal digits? -/
def isWritable (n : Int) : Bool :=
  n.natAbs < Nat.pow 10 maxDigits

end GridRobot.Text
