/-!
# Letter case

Words such as directions and file endings are recognised in any letter case. All recognised words
are written in ASCII letters, so case mapping is needed only as far as it leads to ASCII letters.

## Main definitions

* `upperCase cs` is `cs` with every character replaced by its upper-case ASCII letters, if it has
  them.
* `lowerCase cs` is `cs` with ASCII capitals made small.
-/

namespace GridRobot.Text

/-- The upper-case form of a character where that form consists of ASCII letters; any other
character is left as it is. -/
def upperLetters (c : Char) : List Char :=
  if c.toNat < 0x80 then [c.toUpper]
  else match c.toNat with
    | 0xDF => ['S', 'S']
    | 0x131 => ['I']
    | 0x17F => ['S']
    | 0xFB00 => ['F', 'F']
    | 0xFB01 => ['F', 'I']
    | 0xFB02 => ['F', 'L']
    | 0xFB03 => ['F', 'F', 'I']
    | 0xFB04 => ['F', 'F', 'L']
    | 0xFB05 => ['S', 'T']
    | 0xFB06 => ['S', 'T']
    | _ => [c]

/-- A word in capitals. -/
def upperCase (cs : List Char) : List Char :=
  cs.flatMap upperLetters

/-- A word in small letters. -/
def lowerCase (cs : List Char) : List Char :=
  cs.map Char.toLower

/-- ASCII letters, of which keys and names are made. -/
def isLetter (c : Char) : Bool :=
  c.isAlpha

end GridRobot.Text
