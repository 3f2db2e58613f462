import GridRobot.Text.Integer

/-!
# Dates and moments

A date is a day of the calendar; a moment is a date with a time of day, and perhaps with the offset
of its zone from universal time. Moments with an offset are compared as points in time.

## Main definitions

* `Date` is a date, `Date.isValid` says that the calendar has it.
* `Moment` is a moment, `Moment.isValid` says that there is such a time of day.
* `Date.shown` and `Moment.shown` are their forms in a list or message, `Date.text` and
  `Moment.text` their forms as text.
* `Moment.same` says that two moments are equal.

## Design notes

The calendar is the present one, carried back to the year one and on to the year 9999.
-/

namespace GridRobot

namespace Calendar

/-- A number in decimal digits with zeros before it up to a width. -/
def padded (width n : Nat) : String :=
  let digits := (toString n).toList
  String.ofList (List.replicate (width - digits.length) '0' ++ digits)

/-- A call with some arguments, as values are shown. -/
def call (name : String) (arguments : List String) : String :=
  name ++ "(" ++ ", ".intercalate arguments ++ ")"

/-- Does a year have a twenty-ninth of February? -/
def isLeap (year : Nat) : Bool :=
  year % 4 == 0 && (year % 100 != 0 || year % 400 == 0)

/-- Lengths of the months of a year. -/
def monthLengths (year : Nat) : List Nat :=
  [31, if isLeap year then 29 else 28, 31, 30, 31, 30, 31, 31, 30, 31, 30, 31]

/-- Number of days of a month; there are none in a month that there is not. -/
def daysInMonth (year month : Nat) : Nat :=
  if month = 0 then 0 else (monthLengths year)[month - 1]?.getD 0

/-- Number of days before a year, from the year one on. -/
def daysBeforeYear (year : Nat) : Nat :=
  let past := year - 1
  365 * past + past / 4 - past / 100 + past / 400

end Calendar

/-- A day of the calendar. -/
structure Date where
  year : Nat
  month : Nat
  day : Nat
  deriving Repr, DecidableEq

namespace Date

/-- Does the calendar have a date? -/
def isValid (d : Date) : Bool :=
  1 ≤ d.year && d.year ≤ 9999 && 1 ≤ d.day && d.day ≤ Calendar.daysInMonth d.year d.month

/-- Number of days before a date, from the year one on. -/
def ordinal (d : Date) : Nat :=
  let months := (Calendar.monthLengths d.year).take (d.month - 1)
  Calendar.daysBeforeYear d.year + months.foldl (· + ·) 0 + d.day

/-- A date as text. -/
def text (d : Date) : String :=
  Calendar.padded 4 d.year ++ "-" ++ Calendar.padded 2 d.month ++ "-" ++ Calendar.padded 2 d.day

/-- The numbers of a date. -/
def parts (d : Date) : List Nat :=
  [d.year, d.month, d.day]

/-- A date as it appears in a message. -/
def shown (d : Date) : String :=
  Calendar.call "datetime.date" (d.parts.map toString)

end Date

/-- A date with a time of day; `offset` is the offset of its zone in minutes, if there is one. -/
structure Moment where
  date : Date
  hour : Nat
  minute : Nat
  second : Nat
  microsecond : Nat
  offset : Option Int
  deriving Repr, DecidableEq

namespace Moment

/-- Minutes of a day. -/
def dayMinutes : Nat := 1440

/-- Is there such a date, time of day and zone? -/
def isValid (m : Moment) : Bool :=
  m.date.isValid && m.hour < 24 && m.minute < 60 && m.second < 60 && m.microsecond < 1000000 &&
    m.offset.all fun n => n.natAbs < dayMinutes

/-- The offset of a zone as text. -/
def offsetText (n : Int) : String :=
  (if n < 0 then "-" else "+") ++ Calendar.padded 2 (n.natAbs / 60) ++ ":" ++
    Calendar.padded 2 (n.natAbs % 60)

/-- A moment as text; fractions of a second are left out when there are none. -/
def text (m : Moment) : String :=
  m.date.text ++ " " ++ Calendar.padded 2 m.hour ++ ":" ++ Calendar.padded 2 m.minute ++ ":" ++
    Calendar.padded 2 m.second ++
    (if m.microsecond = 0 then "" else "." ++ Calendar.padded 6 m.microsecond) ++
    (m.offset.map offsetText).getD ""

/-- A zone as it appears in a message: its offset is told in whole days, downwards, and seconds. -/
def zoneShown (n : Int) : String :=
  let seconds : String := "seconds=" ++ toString (n.emod dayMinutes * 60)
  if n = 0 then "datetime.timezone.utc"
  else Calendar.call "datetime.timezone"
    [Calendar.call "datetime.timedelta" (if n < 0 then ["days=-1", seconds] else [seconds])]

/-- The numbers of a moment; seconds are left out at a full minute, and microseconds at a full
second. -/
def parts (m : Moment) : List Nat :=
  m.date.parts ++ [m.hour, m.minute] ++
    (if m.microsecond ≠ 0 then [m.second, m.microsecond]
    else if m.second ≠ 0 then [m.second]
    else [])

/-- A moment as it appears in a message. -/
def shown (m : Moment) : String :=
  Calendar.call "datetime.datetime" (m.parts.map toString ++
    (m.offset.map fun n => "tzinfo=" ++ zoneShown n).toList)

/-- Minutes from the beginning of the year one to a moment in its own zone. -/
def minutes (m : Moment) : Int :=
  (m.date.ordinal * dayMinutes + m.hour * 60 + m.minute : Nat)

/-- Are two moments equal? With offsets they are equal as points in time; a moment with an offset
and one without are never equal. -/
def same (a b : Moment) : Bool :=
  match a.offset, b.offset with
  | none, none => a == b
  | some n, some k =>
    a.minutes - n == b.minutes - k && a.second == b.second && a.microsecond == b.microsecond
  | _, _ => false

end Moment

end GridRobot
