import GridRobot.Text.Loose
import GridRobot.Text.Printable

/-!
# Quoted text

How a piece of text is shown inside a message: between quotes, on one line, with every character
that is not printable written as an escape.

## Main definitions

* `quoted cs` is the text in quotes, and `quote` the same for strings.
* `LooseText.quote` is a loose text in quotes.

## Design notes

Single quotes enclose the text, unless it holds a single and no double quote. Escapes are the
short ones for the backslash, the enclosing quote, line feed, carriage return and tab, and
otherwise the shortest of the three hexadecimal forms that fits. Halves of surrogate pairs are not
printable.
-/

namespace GridRobot.Text

/-- Lower-case hexadecimal digit of a number below sixteen. -/
def hexDigit (n : Nat) : Char :=
  if n < 10 then Char.ofNat (48 + n) else Char.ofNat (87 + n)

/-- The last `width` hexadecimal digits of `n`. -/
def hexDigits : Nat → Nat → List Char
  | 0, _ => []
  | width + 1, n => hexDigits width (n / 16) ++ [hexDigit (n % 16)]

/-- The shortest hexadecimal escape of a code. -/
def hexEscape (n : Nat) : List Char :=
  if n < 0x100 then '\\' :: 'x' :: hexDigits 2 n
  else if n < 0x10000 then '\\' :: 'u' :: hexDigits 4 n
  else '\\' :: 'U' :: hexDigits 8 n

/-- A character as it stands between `quote` marks. -/
def escaped (quote c : Char) : List Char :=
  if c = quote ∨ c = '\\' then ['\\', c]
  else if c = '\n' then ['\\', 'n']
  else if c = '\r' then ['\\', 'r']
  else if c = '\t' then ['\\', 't']
  else if isPrintable c then [c]
  else hexEscape c.toNat

/-- The mark that encloses a text: single, unless only single quotes occur in it. -/
def enclosingQuote (cs : List Char) : Char :=
  if cs.contains '\x27' && !cs.contains '\x22' then '\x22' else '\x27'

/-- The text in quotes. -/
def quoted (cs : List Char) : List Char :=
  let quote := enclosingQuote cs
  quote :: cs.flatMap (escaped quote) ++ [quote]

/-- The text in quotes, as a string. -/
def quote (s : String) : String :=
  String.ofList (quoted s.toList)

/-- A code point as it stands between `quote` marks. -/
def escapedPoint (quote : Char) : CodePoint → List Char
  | .char c => escaped quote c
  | .half n => hexEscape (CodePoint.half n).code

end GridRobot.Text

namespace GridRobot

/-- The text in quotes, as a string. -/
def LooseText.quote (t : LooseText) : String :=
  let mark := Text.enclosingQuote (t.points.filterMap CodePoint.char?)
  String.ofList (mark :: t.points.flatMap (Text.escapedPoint mark) ++ [mark])

end GridRobot
