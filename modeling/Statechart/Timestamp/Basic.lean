/-!
# Moments in time

A timestamp is a date of the Gregorian calendar, in years before and after the
year zero alike, with a time of day in universal time. Second 60 is a leap
second. Years run from -262143 to 262142.
-/

namespace Statechart

/-- **A day of the calendar.** -/
structure Date where
  /-- The year; the year before 1 is 0. -/
  year : Int
  /-- The month, from 1. -/
  month : Nat
  /-- The day of the month, from 1. -/
  day : Nat
deriving DecidableEq, Repr, Inhabited

namespace Date

/-- Whether a year has a 29 February. -/
def isLeapYear (year : Int) : Bool := year % 4 == 0 && (year % 100 != 0 || year % 400 == 0)

/-- The number of days in a month. -/
def daysIn (year : Int) (month : Nat) : Nat :=
  if month = 2 then if isLeapYear year then 29 else 28
  else if month = 4 ∨ month = 6 ∨ month = 9 ∨ month = 11 then 30
  else 31

/-- The first year there is. -/
def firstYear : Int := -262143

/-- The last year there is. -/
def lastYear : Int := 262142

/-- Whether there is such a day. -/
def isValid (date : Date) : Bool :=
  firstYear ≤ date.year && date.year ≤ lastYear && 1 ≤ date.month && date.month ≤ 12
    && 1 ≤ date.day && date.day ≤ daysIn date.year date.month

/-- The next day. -/
def next (date : Date) : Date :=
  if date.day < daysIn date.year date.month then { date with day := date.day + 1 }
  else if date.month < 12 then ⟨date.year, date.month + 1, 1⟩
  else ⟨date.year + 1, 1, 1⟩

/-- The day before. -/
def previous (date : Date) : Date :=
  if 1 < date.day then { date with day := date.day - 1 }
  else if 1 < date.month then
    ⟨date.year, date.month - 1, daysIn date.year (date.month - 1)⟩
  else ⟨date.year - 1, 12, 31⟩

end Date

/-- **A moment in time**, in universal time. -/
structure Timestamp where
  /-- The day. -/
  date : Date
  /-- The minute of the day. -/
  minute : Nat
  /-- The second of the minute; 60 is a leap second. -/
  second : Nat
  /-- The billionth of the second. -/
  nanosecond : Nat
deriving DecidableEq, Repr, Inhabited

namespace Timestamp

/-- The number of minutes in a day. -/
def minutesPerDay : Nat := 24 * 60

/-- The moment at which a clock that is `offset` minutes ahead of universal time
shows a date and time. There is none outside of the years that there are. -/
def ofLocal? (date : Date) (minute second nanosecond : Nat) (offset : Int) : Option Timestamp :=
  let shifted := (minute : Int) - offset
  let date :=
    if shifted < 0 then date.previous
    else if (minutesPerDay : Int) ≤ shifted then date.next
    else date
  if date.isValid then
    some ⟨date, (shifted % minutesPerDay).toNat, second, nanosecond⟩
  else none

/-- A number in decimal, filled up with zeros to a width. -/
def padded (width value : Nat) : String :=
  let digits := Nat.repr value
  String.ofList (List.replicate (width - digits.length) '0') ++ digits

/-- A year: four digits, or a sign and at least four digits where four are not
enough. -/
def yearText (year : Int) : String :=
  if 0 ≤ year ∧ year ≤ 9999 then padded 4 year.toNat
  else (if year < 0 then "-" else "+") ++ padded 4 year.natAbs

/-- The fraction of a second: nothing, or three, six or nine digits, as many as
are needed. -/
def fractionText (nanosecond : Nat) : String :=
  if nanosecond = 0 then ""
  else if nanosecond % 1000000 = 0 then "." ++ padded 3 (nanosecond / 1000000)
  else if nanosecond % 1000 = 0 then "." ++ padded 6 (nanosecond / 1000)
  else "." ++ padded 9 nanosecond

/-- **A moment in writing**, such as `2024-01-02T03:04:05.500Z`. -/
def text (timestamp : Timestamp) : String :=
  yearText timestamp.date.year ++ "-" ++ padded 2 timestamp.date.month
    ++ "-" ++ padded 2 timestamp.date.day
    ++ "T" ++ padded 2 (timestamp.minute / 60) ++ ":" ++ padded 2 (timestamp.minute % 60)
    ++ ":" ++ padded 2 timestamp.second ++ fractionText timestamp.nanosecond ++ "Z"

end Timestamp

end Statechart
