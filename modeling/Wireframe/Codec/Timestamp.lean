import Wireframe.Codec.Basic
import Wireframe.Calendar.Reading

/-!
Contract: the JSON form of a timestamp. It is written as text and read from text
or from whole milliseconds since 1970.
-/

namespace Wireframe.Codec

open Json Number Calendar

/-- The greatest count of milliseconds that is looked at. -/
def greatestMillis : Int := 9223372036854775807

/-- The least count of milliseconds that is looked at. -/
def leastMillis : Int := -9223372036854775808

def timestampOfMillis (millis : Int) : Except DecodeError Timestamp :=
  match Timestamp.ofMillis? millis with
  | some timestamp => .ok timestamp
  | none => .error (.timestampOutOfRange (some millis))

/-- The timestamp of a value. A float has to be whole; one beyond the range of
counts is brought to its end. -/
def decodeTimestamp : Value → Except DecodeError Timestamp
  | .string text =>
      match Timestamp.parse? text with
      | some timestamp => .ok timestamp
      | none => .error (.invalidTimestamp text)
  | .integer number =>
      if greatestMillis < number.value then .error (.timestampOutOfRange none)
      else timestampOfMillis number.value
  | .float number =>
      if number.isInteger then
        timestampOfMillis (max leastMillis (min greatestMillis number.truncate))
      else .error (.fractionalTimestamp number)
  | value => .error (.invalidType (Found.ofValue value) .timestamp)

open Scanner Reader

def timestamp : Codec Timestamp where
  encode timestamp := .string timestamp.text
  decode := decodeTimestamp
  read depth := do
    match ← peekToken with
    | some '[' =>
        opened depth fun _ => refuseList (.invalidType .sequence .timestamp)
    | some '\x7b' =>
        opened depth fun _ => refuseObject (.invalidType .map .timestamp)
    | _ => ofExcept (decodeTimestamp (← grammar scalar))

end Wireframe.Codec
