import KiwiFront.Decimal.Digits
import KiwiFront.Toml.Reader

/-!
# Dates and times

A date, a time, or both, the latter also with the distance from universal time.
Every part has to exist in the calendar; a minute may have a leap second. What is
read is the text in its normal form: the mark between date and time is a capital T,
universal time is a capital Z, and fractions of a second have at most nine digits
and no zeros at their end.
-/

namespace KiwiFront.Toml

open Decimal Reader

/-- A number of two digits between two bounds. -/
def twoDigits (least greatest : Nat) : Reader Nat := do
  let digits ← times Char.isDigit 2
  match natural? 10 digits with
  | some value =>
      require (decide (least ≤ value) && decide (value ≤ greatest))
      return value
  | none => failure

/-- Whether a year has a day more than others. -/
def isLeapYear (year : Nat) : Bool :=
  year % 4 == 0 && (year % 100 != 0 || year % 400 == 0)

/-- How many days a month has. -/
def daysInMonth (year month : Nat) : Nat :=
  if month = 2 then if isLeapYear year then 29 else 28
  else if [4, 6, 9, 11].contains month then 30
  else 31

/-- A date. -/
def date : Reader String := do
  let yearDigits ← times Char.isDigit 4
  character '-'
  let month ← twoDigits 1 12
  character '-'
  let day ← twoDigits 1 31
  require (decide (day ≤ daysInMonth ((natural? 10 yearDigits).getD 0) month))
  return s!"{String.ofList yearDigits}-{padded 2 month}-{padded 2 day}"

/-- The most digits of a second's fraction that count. -/
def fractionDigits : Nat := 9

/-- The fraction of a second, with its point; none if it is zero. -/
def secondFraction : Reader String := do
  character '.'
  let first ← one Char.isDigit
  let others ← run Char.isDigit
  let kept := (first :: others).take fractionDigits
  let trimmed := (kept.reverse.dropWhile (fun digit => digit == '0')).reverse
  return if trimmed.isEmpty then "" else "." ++ String.ofList trimmed

/-- A time of the day. -/
def time : Reader String := do
  let hour ← twoDigits 0 23
  character ':'
  let minute ← twoDigits 0 59
  character ':'
  let second ← twoDigits 0 60
  let behind ← maybe secondFraction
  return s!"{padded 2 hour}:{padded 2 minute}:{padded 2 second}" ++ behind.getD ""

/-- The distance from universal time. -/
def distance : Reader String := do
  let mark ← one (fun given => ['Z', 'z', '+', '-'].contains given)
  if mark == 'Z' || mark == 'z' then return "Z"
  else
    let hour ← twoDigits 0 23
    character ':'
    let minute ← twoDigits 0 59
    let written := if hour = 0 ∧ minute = 0 then '+' else mark
    return s!"{written}{padded 2 hour}:{padded 2 minute}"

/-- A time behind a date. -/
def timeBehind : Reader String := do
  let _ ← one (fun given => ['T', 't', ' '].contains given)
  let clock ← time
  let zone ← maybe distance
  return "T" ++ clock ++ zone.getD ""

/-- A date, a time, or both. -/
def dateTime : Reader String :=
  oneOf [(do return (← date) ++ (← maybe timeBehind).getD ""), time]

/-- The normal form of a text that is a date, a time, or both. -/
def dateTimeOfText? (text : String) : Option String :=
  all? dateTime text.toList

end KiwiFront.Toml
