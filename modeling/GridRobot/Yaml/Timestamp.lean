import GridRobot.Value.Basic

/-!
# Timestamps of YAML text

A plain scalar may be a date, or a date with a time of day and perhaps a zone.

## Main definitions

* `Yaml.readTimestamp?` recognises the written forms of dates and moments.

## Design notes

A date alone is written with two digits for the month and two for the day; before a time of day one
digit is enough. Of a fraction of a second only microseconds count. What has the form of a timestamp
need not be in the calendar.
-/

namespace GridRobot.Yaml

/-- A number of at least and at most so many digits at the beginning of a text, and what follows. -/
def splitNumber? (least most : Nat) (cs : List Char) : Option (Nat × List Char) :=
  let digits := (cs.take most).takeWhile Char.isDigit
  if digits.length < least then none else some (Text.digitsValue digits, cs.drop digits.length)

/-- What follows a character at the beginning of a text. -/
def splitMark? (mark : Char) (cs : List Char) : Option (List Char) :=
  if cs.head? = some mark then some (cs.drop 1) else none

/-- Spaces and tabs. -/
def isBlank (c : Char) : Bool :=
  c == ' ' || c == '\t'

/-- A date at the beginning of a text, and what follows. -/
def splitDate? (cs : List Char) : Option (Date × List Char) := do
  let (year, cs) ← splitNumber? 4 4 cs
  let (month, cs) ← splitNumber? 1 2 (← splitMark? '-' cs)
  let (day, cs) ← splitNumber? 1 2 (← splitMark? '-' cs)
  some (⟨year, month, day⟩, cs)

/-- What follows the blanks, or the letter, between a date and a time. -/
def splitTimeMark? (cs : List Char) : Option (List Char) :=
  match cs with
  | [] => none
  | c :: rest =>
    if c = 'T' ∨ c = 't' then some rest
    else if isBlank c then some (rest.dropWhile isBlank)
    else none

/-- The microseconds in a fraction of a second, and what follows it; there may be no fraction. -/
def splitFraction (cs : List Char) : Nat × List Char :=
  match cs with
  | '.' :: rest =>
    let digits := (rest.takeWhile Char.isDigit).take 6
    (Text.digitsValue digits * Nat.pow 10 (6 - digits.length), rest.dropWhile Char.isDigit)
  | _ => (0, cs)

/-- The minutes after the hours of an offset, which may be left out. -/
def readOffsetMinutes? (cs : List Char) : Option Nat :=
  if cs.isEmpty then some 0
  else do
    let (minutes, rest) ← splitNumber? 2 2 (← splitMark? ':' cs)
    if rest.isEmpty then some minutes else none

/-- The zone at the end of a moment, if there is one, as its offset in minutes. -/
def readZone? (cs : List Char) : Option (Option Int) :=
  if cs.isEmpty then some none
  else match cs.dropWhile isBlank with
    | ['Z'] => some (some 0)
    | sign :: rest =>
      if sign = '-' ∨ sign = '+' then do
        let (hours, rest) ← splitNumber? 1 2 rest
        let n : Int := hours * 60 + (← readOffsetMinutes? rest)
        some (some (if sign = '-' then -n else n))
      else none
    | [] => none

/-- The moment of a date and a time of day. -/
def readMoment? (date : Date) (cs : List Char) : Option Moment := do
  let (hour, cs) ← splitNumber? 1 2 (← splitTimeMark? cs)
  let (minute, cs) ← splitNumber? 2 2 (← splitMark? ':' cs)
  let (second, cs) ← splitNumber? 2 2 (← splitMark? ':' cs)
  let (microsecond, cs) := splitFraction cs
  some ⟨date, hour, minute, second, microsecond, ← readZone? cs⟩

/-- A value of which is known whether it is in the calendar. -/
def inCalendar (valid : Bool) (v : Value) : Except Breakdown Value :=
  if valid then .ok v else .error .badNumber

/-- A date or moment: `none` if the text has no form of one, and otherwise its value if it is in the
calendar. -/
def readTimestamp? (cs : List Char) : Option (Except Breakdown Value) := do
  let (date, rest) ← splitDate? cs
  if rest.isEmpty then
    if cs.length = 10 then some (inCalendar date.isValid (.date date)) else none
  else
    let moment ← readMoment? date rest
    some (inCalendar moment.isValid (.moment moment))

end GridRobot.Yaml
