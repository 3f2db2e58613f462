/-!
# Blank space and lines

Which characters separate words, and where a text is cut into lines.

## Main definitions

* `isBlank c` says that `c` is white space (Unicode property White_Space and the four separators
  U+001C to U+001F).
* `trim cs` is `cs` without blank characters at its ends.
* `lines cs` cuts `cs` at its line breaks.
* `unifyNewlines cs` writes every line end as a single line feed.
-/

namespace GridRobot.Text

/-- White space in any script. -/
def isBlank (c : Char) : Bool :=
  let n := c.toNat
  (0x9 ≤ n && n ≤ 0xD) || (0x1C ≤ n && n ≤ 0x20) || n == 0x85 || n == 0xA0 || n == 0x1680 ||
    (0x2000 ≤ n && n ≤ 0x200A) || n == 0x2028 || n == 0x2029 || n == 0x202F || n == 0x205F ||
    n == 0x3000

/-- The text from its first character that is not blank. -/
def trimStart (cs : List Char) : List Char :=
  cs.dropWhile isBlank

/-- The text up to its last character that is not blank. -/
def trimEnd (cs : List Char) : List Char :=
  (cs.reverse.dropWhile isBlank).reverse

/-- The text without blank characters at its ends. -/
def trim (cs : List Char) : List Char :=
  trimEnd (trimStart cs)

/-- Characters that end a line. -/
def isLineBreak (c : Char) : Bool :=
  let n := c.toNat
  (0xA ≤ n && n ≤ 0xD) || (0x1C ≤ n && n ≤ 0x1E) || n == 0x85 || n == 0x2028 || n == 0x2029

/-- Lines of a text whose first line has already begun with the characters of `seen`, latest
first. -/
def linesFrom (seen : List Char) : List Char → List (List Char)
  | [] => if seen.isEmpty then [] else [seen.reverse]
  | '\r' :: '\n' :: rest => seen.reverse :: linesFrom [] rest
  | c :: rest =>
    if isLineBreak c then seen.reverse :: linesFrom [] rest else linesFrom (c :: seen) rest

/-- Lines of a text without their line breaks; a break at the very end opens no further line. -/
def lines (cs : List Char) : List (List Char) :=
  linesFrom [] cs

/-- The same text with every carriage return, alone or before a line feed, read as a line feed. -/
def unifyNewlines : List Char → List Char
  | [] => []
  | '\r' :: '\n' :: rest => '\n' :: unifyNewlines rest
  | c :: rest => (if c = '\r' then '\n' else c) :: unifyNewlines rest

/-- A trimmed text does not begin with a blank character. -/
theorem isBlank_of_head?_trimStart {cs : List Char} {c : Char}
    (h : (trimStart cs).head? = some c) : isBlank c = false := by
  induction cs with
  | nil => simp [trimStart] at h
  | cons d rest ih =>
    by_cases hd : isBlank d = true
    · exact ih (by simpa [trimStart, List.dropWhile_cons, hd] using h)
    · have : d = c := by simpa [trimStart, List.dropWhile_cons, hd] using h
      subst this
      simpa using hd

end GridRobot.Text
