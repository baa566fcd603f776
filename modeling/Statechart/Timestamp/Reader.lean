import Statechart.Decimal
import Statechart.Text.Blank
import Statechart.Timestamp.Basic

/-!
# Reading moments in time

A moment is read from a date, a time of day and the offset of the clock from
universal time, as in `2024-01-02T03:04:05.5+01:00`. The form is a relaxed one:
the date and the time may be separated by a blank instead of a `T`, blanks may
stand around the numbers, numbers may have fewer digits than usual, a year with
a sign may have any number of digits, and digits beyond the billionth of a
second are dropped. The offset is `Z`, `UTC` in any case, or hours and minutes
with a sign, with colons and blanks between them or nothing.
-/

namespace Statechart

namespace Timestamp

/-- What a step of reading takes off the front of a text, and the rest. -/
abbrev Reading (α : Type) : Type := List Char → Option (α × List Char)

/-- The number that stands in front, of at most `width` digits. -/
def number? (width : Nat) : Reading Nat := fun text =>
  let digits := (text.take width).takeWhile Char.isDigit
  if digits.isEmpty then none
  else some (Decimal.value digits, text.drop digits.length)

/-- The number of at most two digits that stands in front, after blanks. -/
def twoDigits? : Reading Nat := fun text => number? 2 (Text.trimLeft text)

/-- The year that stands in front, after blanks: four digits at most, unless it
has a sign. -/
def year? : Reading Int := fun text =>
  match Text.trimLeft text with
  | '-' :: rest => (number? rest.length rest).map fun (year, rest) => (-(year : Int), rest)
  | '+' :: rest => (number? rest.length rest).map fun (year, rest) => ((year : Int), rest)
  | rest => (number? 4 rest).map fun (year, rest) => ((year : Int), rest)

/-- A mark that has to come next, after blanks. -/
def mark? (mark : Char) (text : List Char) : Option (List Char) :=
  match Text.trimLeft text with
  | first :: rest => if first = mark then some rest else none
  | [] => none

/-- A date: year, month and day, with hyphens between them. -/
def date? : Reading Date := fun text => do
  let (year, text) ← year? text
  let (month, text) ← twoDigits? (← mark? '-' text)
  let (day, text) ← twoDigits? (← mark? '-' text)
  return (⟨year, month, day⟩, text)

/-- The letter or blank between date and time. -/
def separator? : List Char → Option (List Char)
  | 'T' :: rest => some rest
  | 't' :: rest => some rest
  | ' ' :: rest => some rest
  | _ => none

/-- The fraction of a second in billionths, if there is one. -/
def fraction? : Reading Nat := fun text =>
  match text with
  | '.' :: rest =>
    let digits := rest.takeWhile Char.isDigit
    if digits.isEmpty then none
    else
      let kept := digits.take 9
      some (Decimal.value kept * Nat.pow 10 (9 - kept.length), rest.drop digits.length)
  | _ => some (0, text)

/-- Two digits that stand in front. -/
def digitPair? : Reading Nat := fun text =>
  match text with
  | first :: second :: rest =>
    if first.isDigit && second.isDigit then
      some (Decimal.digitValue first * 10 + Decimal.digitValue second, rest)
    else none
  | _ => none

/-- The hours and minutes of an offset, after its sign. -/
def offsetSize? : Reading Nat := fun text => do
  let (hours, text) ← digitPair? text
  let (minutes, text) ← digitPair? (text.dropWhile fun char => char = ':' || Text.isBlank char)
  if minutes < 60 then return (hours * 60 + minutes, text) else none

/-- Whether the letters in front are `UTC`, in any case. -/
def isUniversal (text : List Char) : Bool :=
  (text.take 3).map Char.toUpper == ['U', 'T', 'C']

/-- The offset of a clock from universal time, in minutes. -/
def offset? : Reading Int := fun text =>
  if isUniversal text then some (0, text.drop 3)
  else match text with
    | 'Z' :: rest => some (0, rest)
    | 'z' :: rest => some (0, rest)
    | '+' :: rest => (offsetSize? rest).map fun (size, rest) => ((size : Int), rest)
    | '-' :: rest => (offsetSize? rest).map fun (size, rest) => (-(size : Int), rest)
    | '−' :: rest => (offsetSize? rest).map fun (size, rest) => (-(size : Int), rest)
    | _ => none

/-- **The moment that a text means.** -/
def ofText? (text : String) : Option Timestamp := do
  let (date, text) ← date? text.toList
  let (hour, text) ← twoDigits? (← separator? text)
  let (minute, text) ← twoDigits? (← mark? ':' text)
  let (second, text) ← twoDigits? (← mark? ':' text)
  let (nanosecond, text) ← fraction? text
  let (offset, text) ← offset? (Text.trimLeft text)
  if !(Text.trimLeft text).isEmpty then none
  else if hour < 24 && minute < 60 && second ≤ 60 && offset.natAbs < minutesPerDay
      && date.isValid then
    ofLocal? date (hour * 60 + minute) second nanosecond offset
  else none

end Timestamp

end Statechart
