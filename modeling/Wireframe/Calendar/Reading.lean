import Wireframe.Calendar.Timestamp
import Wireframe.Text.Blank

/-!
Contract: the texts that name a timestamp.

Three forms are tried in turn: a date and time with an offset from universal
time, a date and time read as universal time, and a date, read as its first
instant. Digits beyond the millisecond are dropped.
-/

namespace Wireframe.Calendar

/-- Reads from the front of some characters, or refuses. -/
abbrev Reading (α : Type) := StateT (List Char) Option α

namespace Reading

def digitValue (char : Char) : Nat :=
  char.toNat - '0'.toNat

def spelled (digits : List Char) : Nat :=
  digits.foldl (fun total digit => 10 * total + digitValue digit) 0

def charWhere (test : Char → Bool) : Reading Unit
  | [] => none
  | char :: rest => if test char then some ((), rest) else none

def char (expected : Char) : Reading Unit :=
  charWhere (· = expected)

/-- At least one and at most `most` digits. -/
def digits (most : Nat) : Reading (List Char) := fun chars =>
  let taken := (chars.take most).takeWhile Char.isDigit
  if taken.isEmpty then none else some (taken, chars.drop taken.length)

/-- Exactly `count` digits. -/
def exactly (count : Nat) : Reading Nat := do
  let taken ← digits count
  if taken.length = count then pure (spelled taken) else failure

/-- A number of at most `most` digits after any blanks. -/
def spacedNumber (most : Nat) : Reading Nat := do
  modify Text.trimStart
  return spelled (← digits most)

/-- A year after any blanks: up to four digits, or a sign and any digits. No
year below zero is admitted. -/
def spacedYear : Reading Nat := do
  modify Text.trimStart
  let chars ← get
  match chars with
  | '+' :: rest =>
      set rest
      return spelled (← digits rest.length)
  | '-' :: rest =>
      set rest
      let year := spelled (← digits rest.length)
      if year = 0 then pure 0 else failure
  | _ => return spelled (← digits 4)

/-- The nanoseconds after a point, if there is one. Nine digits count. -/
def fraction : Reading Nat := fun chars =>
  match chars with
  | '.' :: rest =>
      let taken := rest.takeWhile Char.isDigit
      if taken.isEmpty then none
      else some (spelled ((taken ++ List.replicate 9 '0').take 9),
        rest.dropWhile Char.isDigit)
  | _ => some (0, chars)

/-- The seconds by which a zone is ahead of universal time. -/
def offset : Reading Int := do
  let chars ← get
  match chars with
  | 'Z' :: rest | 'z' :: rest =>
      set rest
      pure 0
  | sign :: rest =>
      if sign = '+' ∨ sign = '-' ∨ sign = '\u2212' then
        set rest
        let hours ← exactly 2
        char ':'
        let minutes ← exactly 2
        if 23 < hours ∨ 59 < minutes then failure
        else
          let seconds : Int := ((hours * 3600 + minutes * 60 : Nat) : Int)
          pure (if sign = '+' then seconds else -seconds)
      else failure
  | [] => failure

def ended : Reading Unit := fun chars =>
  if chars.isEmpty then some ((), []) else none

end Reading

/-- A time of day; the second may be 60. -/
structure TimeOfDay where
  hour : Nat
  minute : Nat
  second : Nat
  nano : Nat

namespace TimeOfDay

def midnight : TimeOfDay := ⟨0, 0, 0, 0⟩

def isValid (time : TimeOfDay) : Bool :=
  time.hour ≤ 23 && time.minute ≤ 59 && time.second ≤ 60

/-- The second of the day, a leap second standing with the one before it. -/
def secondOfDay (time : TimeOfDay) : Nat :=
  time.hour * 3600 + time.minute * 60 + min time.second 59

def milli (time : TimeOfDay) : Nat :=
  time.nano / 1000000 + (if time.second = 60 then 1000 else 0)

end TimeOfDay

/-- The instant of a local date and time in a zone. -/
def timestampAt? (date : Date) (time : TimeOfDay) (offset : Int) : Option Timestamp :=
  if date.isValid && time.isValid then
    Timestamp.ofSecond?
      ((date.dayNumber * secondsPerDay + time.secondOfDay : Nat) - offset) time.milli
  else none

namespace Reading

def zoned : Reading (Date × TimeOfDay × Int) := do
  let year ← exactly 4
  char '-'
  let month ← exactly 2
  char '-'
  let day ← exactly 2
  charWhere fun separator => separator = 'T' || separator = 't' || separator = ' '
  let hour ← exactly 2
  char ':'
  let minute ← exactly 2
  char ':'
  let second ← exactly 2
  let nano ← fraction
  let ahead ← offset
  ended
  pure (⟨year, month, day⟩, ⟨hour, minute, second, nano⟩, ahead)

/-- A date, its parts possibly after blanks. -/
def spacedDate : Reading Date := do
  let year ← spacedYear
  char '-'
  let month ← spacedNumber 2
  char '-'
  let day ← spacedNumber 2
  pure ⟨year, month, day⟩

/-- A date and time without an offset. -/
def unzoned : Reading (Date × TimeOfDay) := do
  let date ← spacedDate
  char 'T'
  let hour ← spacedNumber 2
  char ':'
  let minute ← spacedNumber 2
  char ':'
  let second ← spacedNumber 2
  let nano ← fraction
  ended
  pure (date, ⟨hour, minute, second, nano⟩)

/-- A date alone. -/
def bareDate : Reading Date := do
  let date ← spacedDate
  ended
  pure date

/-- The fields of a zoned text that names an existing local date and time. -/
def zonedFields? (chars : List Char) : Option (Date × TimeOfDay × Int) :=
  match zoned.run' chars with
  | some (date, time, ahead) =>
      if date.isValid && time.isValid then some (date, time, ahead) else none
  | none => none

/-- The fields of an unzoned text that names an existing date and time. -/
def unzonedFields? (chars : List Char) : Option (Date × TimeOfDay) :=
  match unzoned.run' chars with
  | some (date, time) =>
      if date.isValid && time.isValid then some (date, time) else none
  | none => none

end Reading

namespace Timestamp

/-- The timestamp that a text names, blanks at its ends aside. The first form
that fits decides, even where its instant is out of range. -/
def parse? (text : String) : Option Timestamp :=
  let chars := Text.trim text.toList
  match Reading.zonedFields? chars with
  | some (date, time, ahead) => timestampAt? date time ahead
  | none =>
      match Reading.unzonedFields? chars with
      | some (date, time) => timestampAt? date time 0
      | none =>
          match Reading.bareDate.run' chars with
          | some date => timestampAt? date .midnight 0
          | none => none

end Timestamp

end Wireframe.Calendar
