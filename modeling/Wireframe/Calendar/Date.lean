/-!
Contract: dates of the years 0 to 9999 in the Gregorian calendar, extended
backwards.

Owns:
- the type `Date` and its validity;
- the day number of a date, counted from the first day of year 0;
- the date of a day number.
-/

namespace Wireframe.Calendar

/-- A year, a month from 1 and a day of the month from 1. -/
structure Date where
  year : Nat
  month : Nat
  day : Nat
deriving DecidableEq

/-- Whether a year has 366 days. -/
def isLeapYear (year : Nat) : Bool :=
  year % 4 == 0 && (year % 100 != 0 || year % 400 == 0)

def monthLengths (year : Nat) : List Nat :=
  [31, if isLeapYear year then 29 else 28, 31, 30, 31, 30, 31, 31, 30, 31, 30, 31]

/-- The days between the first day of year 0 and the first day of a year. -/
def daysBeforeYear (year : Nat) : Nat :=
  365 * year + (year + 3) / 4 - (year + 99) / 100 + (year + 399) / 400

/-- The year that a day number falls into. The estimate by the mean length of a
year is off by one at most. -/
def yearOfDay (dayNumber : Nat) : Nat :=
  let estimate := dayNumber * 400 / 146097
  if dayNumber < daysBeforeYear estimate then estimate - 1
  else if daysBeforeYear (estimate + 1) ≤ dayNumber then estimate + 1
  else estimate

/-- The month, counted from `month`, and the day that a day of the year, counted
from zero, falls into. -/
def splitMonths (month dayOfYear : Nat) : List Nat → Nat × Nat
  | [] => (month, dayOfYear + 1)
  | length :: lengths =>
      if dayOfYear < length then (month, dayOfYear + 1)
      else splitMonths (month + 1) (dayOfYear - length) lengths

/-- The days of a year before a month, which is counted from 1. -/
def daysBeforeMonth (year month : Nat) : Nat :=
  ((monthLengths year).take (month - 1)).foldl (· + ·) 0

namespace Date

def isValid (date : Date) : Bool :=
  1 ≤ date.month && 1 ≤ date.day &&
    ((monthLengths date.year)[date.month - 1]?).any (date.day ≤ ·)

/-- The number of days before the date, since the first day of year 0. -/
def dayNumber (date : Date) : Nat :=
  daysBeforeYear date.year + daysBeforeMonth date.year date.month +
    (date.day - 1)

def ofDayNumber (dayNumber : Nat) : Date :=
  let year := yearOfDay dayNumber
  let (month, day) := splitMonths 1 (dayNumber - daysBeforeYear year) (monthLengths year)
  ⟨year, month, day⟩

end Date

end Wireframe.Calendar
