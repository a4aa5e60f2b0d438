import Wireframe.Json.Scanner
import Wireframe.Json.Value

/-!
Contract: the scalar tokens of JSON text.

Owns:
- numbers, exact when whole and in range, otherwise the nearest binary64;
- strings with their escapes, surrogate pairs joined.

The cursor of a number stands after its sign, that of a string after its
opening quote.
-/

namespace Wireframe.Json

open Number

/-- A number as it is spelled: an integer or a number with a fraction part. -/
inductive NumberToken where
  | integer (number : Integer)
  | float (number : Binary64)

namespace NumberToken

def toValue : NumberToken → Value
  | .integer number => .integer number
  | .float number => .float number

end NumberToken

def ofDigits (digits : List Char) : Nat :=
  digits.foldl (fun total digit => 10 * total + (digit.toNat - '0'.toNat)) 0

/-- The greatest exponent that is read as a number. -/
def exponentLimit : Nat := 2147483647

/-- The shortest leading part of some digits that spells more than the limit. -/
def excessiveExponent (total : Nat) : List Char → List Char → Option (List Char)
  | _, [] => none
  | taken, digit :: rest =>
      let grown := 10 * total + (digit.toNat - '0'.toNat)
      if exponentLimit < grown then some (digit :: taken).reverse
      else excessiveExponent grown (digit :: taken) rest

/-- The exponent of a number. One so far below zero that only zero is left, or
an excessive one of zero, is `vanishing`. -/
inductive Exponent where
  | absent
  | power (value : Int)
  | vanishing

namespace Scanner

/-- The digits before the point: a zero alone, or digits without leading zero. -/
def wholeDigits : Scanner Failure (List Char) := do
  match ← peek with
  | none => failHere .endInValue
  | some '0' =>
      eat
      match ← peek with
      | some char => if char.isDigit then failNext .invalidNumber else pure ['0']
      | none => pure ['0']
  | some char =>
      if char.isDigit then eatWhile Char.isDigit else failNext .invalidNumber

/-- The digits after the point, if there is one. -/
def fractionDigits : Scanner Failure (Option (List Char)) := do
  match ← peek with
  | some '.' =>
      eat
      let digits ← eatWhile Char.isDigit
      if digits.isEmpty then
        match ← peek with
        | some _ => failNext .invalidNumber
        | none => failNext .endInValue
      else pure (some digits)
  | _ => pure none

/-- The sign of an exponent, absent meaning plus. -/
def exponentSign : Scanner Failure Bool := do
  match ← peek with
  | some '+' => eat; pure false
  | some '-' => eat; pure true
  | _ => pure false

/-- The exponent. A positive one beyond the limit stops at the digit that passes
it unless the digits before it are all zero. -/
def exponent (digitsAreZero : Bool) : Scanner Failure Exponent := do
  match ← peek with
  | some 'e' | some 'E' =>
      eat
      let negative ← exponentSign
      match ← peek with
      | none => failHere .endInValue
      | some char =>
          if char.isDigit then
            let start ← get
            let digits ← eatWhile Char.isDigit
            match excessiveExponent 0 [] digits with
            | none =>
                let magnitude : Int := (ofDigits digits : Nat)
                pure (.power (if negative then -magnitude else magnitude))
            | some taken =>
                if negative || digitsAreZero then pure .vanishing
                else throw ⟨.numberOutOfRange, start.offset + taken.length⟩
          else failNext .invalidNumber
  | _ => pure .absent

/-- A number without fraction and exponent, exact where possible. -/
def wholeNumber (negative : Bool) (digits : List Char) : Option NumberToken :=
  let magnitude := ofDigits digits
  let signed : Int := if negative then -(magnitude : Int) else magnitude
  let exact := if negative && magnitude == 0 then none else Integer.ofInt? signed
  match exact with
  | some integer => some (.integer integer)
  | none => (Binary64.ofDecimal? negative magnitude digits.length 0).map .float

def scaledNumber (negative : Bool) (digits : List Char) (power : Int) : Option NumberToken :=
  (Binary64.ofDecimal? negative (ofDigits digits) digits.length power).map .float

/-- A number, its sign already read. -/
def number (negative : Bool) : Scanner Failure NumberToken := do
  let whole ← wholeDigits
  let fraction ← fractionDigits
  let digits := whole ++ fraction.getD []
  let places : Int := (fraction.getD []).length
  let token := match ← exponent (ofDigits digits == 0), fraction with
    | .absent, none => wholeNumber negative digits
    | .absent, some _ => scaledNumber negative digits (-places)
    | .power power, _ => scaledNumber negative digits (power - places)
    | .vanishing, _ => some (.float (.signedZero negative))
  match token with
  | some token => pure token
  | none => failHere .numberOutOfRange

end Scanner

def hexValue? (char : Char) : Option Nat :=
  if char.isDigit then some (char.toNat - '0'.toNat)
  else if 'a' ≤ char ∧ char ≤ 'f' then some (char.toNat - 'a'.toNat + 10)
  else if 'A' ≤ char ∧ char ≤ 'F' then some (char.toNat - 'A'.toNat + 10)
  else none

def hexValues? (chars : List Char) : Option Nat :=
  chars.foldlM (fun total char => (hexValue? char).map (16 * total + ·)) 0

namespace Scanner

/-- Four hexadecimal digits of an escape. Four bytes are read whatever they
are, so fewer are an early end. -/
def hexEscape : Scanner Failure Nat := fun cursor =>
  match cursor.rest with
  | first :: second :: third :: fourth :: rest =>
      match hexValues? [first, second, third, fourth] with
      | some value => .ok (value, ⟨rest, cursor.offset + 4⟩)
      | none => .error ⟨.invalidEscape, cursor.offset + 4⟩
  | chars =>
      if byteLength chars < 4 then .error ⟨.endInString, cursor.offset + byteLength chars⟩
      else .error ⟨.invalidEscape, cursor.offset + 4⟩

def surrogateMark (mark : Char) : Scanner Failure Unit := do
  match ← peek with
  | none => failHere .endInString
  | some char => if char = mark then eat else failNext .endOfSurrogate

/-- The character of a four-digit escape; a leading surrogate takes the escape
of its partner with it. -/
def unicodeEscape : Scanner Failure Char := do
  let unit ← hexEscape
  if 0xDC00 ≤ unit ∧ unit ≤ 0xDFFF then failHere .loneSurrogate
  else if 0xD800 ≤ unit ∧ unit ≤ 0xDBFF then
    surrogateMark '\\'
    surrogateMark 'u'
    let partner ← hexEscape
    if 0xDC00 ≤ partner ∧ partner ≤ 0xDFFF then
      pure (Char.ofNat (0x10000 + (unit - 0xD800) * 0x400 + (partner - 0xDC00)))
    else failHere .loneSurrogate
  else pure (Char.ofNat unit)

/-- What a one-letter escape stands for. -/
def simpleEscape? : Char → Option Char
  | '"' => some '"'
  | '\\' => some '\\'
  | '/' => some '/'
  | 'b' => some '\x08'
  | 'f' => some '\x0c'
  | 'n' => some '\n'
  | 'r' => some '\r'
  | 't' => some '\t'
  | _ => none

/-- The character of an escape, its backslash already read. -/
def escape : Scanner Failure Char := do
  match ← peek with
  | none => failHere .endInString
  | some 'u' =>
      eat
      unicodeEscape
  | some char =>
      match simpleEscape? char with
      | some meaning => eat; pure meaning
      | none => failNext .invalidEscape

/-- The next character of a string; `none` at its closing quote. -/
def stringChar : Scanner Failure (Option Char) := do
  match ← peek with
  | none => failHere .endInString
  | some '"' => eat; pure none
  | some '\\' => eat; return some (← escape)
  | some char =>
      if char.toNat < 32 then failNext .controlCharacter
      else
        eat
        pure (some char)

/-- The characters up to the closing quote, after those already `done`. -/
def stringRest (bound : Nat) (done : List Char) : Scanner Failure (List Char) := fun cursor =>
  match bound with
  | 0 => .ok (done.reverse, cursor)
  | bound + 1 =>
      match stringChar cursor with
      | .error failure => .error failure
      | .ok (none, cursor) => .ok (done.reverse, cursor)
      | .ok (some char, cursor) => stringRest bound (char :: done) cursor

/-- A string, its opening quote already read. -/
def string : Scanner Failure String := fun cursor =>
  match stringRest (cursor.rest.length + 1) [] cursor with
  | .error failure => .error failure
  | .ok (chars, cursor) => .ok (String.ofList chars, cursor)

end Scanner

end Wireframe.Json
