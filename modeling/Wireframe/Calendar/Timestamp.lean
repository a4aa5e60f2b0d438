import Wireframe.Calendar.Date

/-!
Contract: instants of the years 0 to 9999 with a precision of a millisecond.

Owns:
- the type `Timestamp`, leap seconds included;
- the count of milliseconds since 1970, in both directions;
- the text of a timestamp.

Does not own: the forms in which a timestamp may be given.
-/

namespace Wireframe.Calendar

/-- The seconds of a day without leap second. -/
def secondsPerDay : Nat := 86400

/-- The seconds of the years 0 to 9999. -/
def secondLimit : Nat := 3652425 * secondsPerDay

/-- The seconds from the start of year 0 to the start of 1970. -/
def secondsBefore1970 : Nat := 719528 * secondsPerDay

/-- An instant. `second` counts from the start of year 0. A leap second is held
as the last second of its minute with 1000 or more milliseconds. -/
structure Timestamp where
  second : Nat
  milli : Nat
  second_lt : second < secondLimit
  milli_lt : milli < 2000
  leap_last : 1000 ≤ milli → second % 60 = 59
deriving DecidableEq

/-- Decimal digits, filled up with zeros in front to a least width. -/
def padded (width value : Nat) : List Char :=
  let digits := Nat.toDigits 10 value
  List.replicate (width - digits.length) '0' ++ digits

namespace Timestamp

/-- The start of 1970. -/
def epoch : Timestamp := ⟨secondsBefore1970, 0, by decide, by decide, by decide⟩

instance : Inhabited Timestamp := ⟨epoch⟩

/-- Milliseconds since the start of 1970; a leap second counts into the next. -/
def millis (timestamp : Timestamp) : Int :=
  ((timestamp.second : Int) - secondsBefore1970) * 1000 + timestamp.milli

/-- The instant that many milliseconds after the start of 1970. -/
def ofMillis? (millis : Int) : Option Timestamp :=
  let total := millis + (secondsBefore1970 : Int) * 1000
  let count := total.toNat
  if total < 0 then none
  else if second_lt : count / 1000 < secondLimit then
    some ⟨count / 1000, count % 1000, second_lt, by omega, by omega⟩
  else none

/-- The instant of a second and the milliseconds in it, if there is one. -/
def ofSecond? (second : Int) (milli : Nat) : Option Timestamp :=
  if second < 0 then none
  else if second_lt : second.toNat < secondLimit then
    if milli_lt : milli < 2000 then
      if leap_last : 1000 ≤ milli → second.toNat % 60 = 59 then
        some ⟨second.toNat, milli, second_lt, milli_lt, leap_last⟩
      else none
    else none
  else none

/-- The date, the time of day with three fraction digits, and the mark of
universal time. -/
def chars (timestamp : Timestamp) : List Char :=
  let date := Date.ofDayNumber (timestamp.second / secondsPerDay)
  let time := timestamp.second % secondsPerDay
  padded 4 date.year ++ '-' :: padded 2 date.month ++ '-' :: padded 2 date.day ++
    'T' :: padded 2 (time / 3600) ++ ':' :: padded 2 (time / 60 % 60) ++
    ':' :: padded 2 (time % 60 + timestamp.milli / 1000) ++
    '.' :: padded 3 (timestamp.milli % 1000) ++ ['Z']

def text (timestamp : Timestamp) : String :=
  String.ofList timestamp.chars

end Timestamp

end Wireframe.Calendar
