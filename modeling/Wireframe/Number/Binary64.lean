/-!
Contract: finite binary64 numbers, held as a sign and the position of their
magnitude among all finite magnitudes.

Owns:
- the type `Binary64`, its exact magnitude in units of `2 ^ (-1074)`;
- numeric comparison, in which the two zeros are equal;
- rounding a non-negative quotient to the nearest magnitude, ties to even;
- rounding up, integrality and clamping to an integer range.

Does not own: any spelling of a number as text.
-/

namespace Wireframe.Number

def twoTo (exponent : Nat) : Nat := Nat.pow 2 exponent

def tenTo (exponent : Nat) : Nat := Nat.pow 10 exponent

/-- The number of magnitude codes per binade. -/
def binade : Nat := twoTo 52

/-- The first code that stands for no finite magnitude. -/
def codeLimit : Nat := 2047 * binade

/-- The exponent of the reciprocal of the least positive magnitude. -/
def unitExponent : Nat := 1074

/-- The number of units in one. -/
def unitsPerOne : Nat := twoTo unitExponent

/-- A finite binary64 number. `code` counts the finite magnitudes below it, so
codes are ordered as the magnitudes are. -/
structure Binary64 where
  negative : Bool
  code : Nat
  finite : code < codeLimit

/-- The magnitude with a given code, in units of `2 ^ (-1074)`. -/
def unitsOfCode (code : Nat) : Nat :=
  if code < binade then code
  else (binade + code % binade) * twoTo (code / binade - 1)

/-- The quotient rounded to the nearest integer, a tie going to the even one. -/
def divideToEven (numerator denominator : Nat) : Nat :=
  let quotient := numerator / denominator
  let twice := 2 * (numerator % denominator)
  if denominator < twice then quotient + 1
  else if twice < denominator then quotient
  else quotient + quotient % 2

/-- The code nearest to `numerator / denominator` in a scale without an upper
end: the significand keeps 53 bits, fewer below the least normal magnitude. -/
def nearestCode (numerator denominator : Nat) : Nat :=
  let scaled := numerator * unitsPerOne
  let step := (scaled / denominator).log2 - 52
  step * binade + divideToEven scaled (denominator * twoTo step)

namespace Binary64

def signedZero (negative : Bool) : Binary64 := ⟨negative, 0, by decide⟩

def zero : Binary64 := signedZero false

instance : Inhabited Binary64 := ⟨zero⟩

/-- The exact magnitude in units of `2 ^ (-1074)`. -/
def units (number : Binary64) : Nat :=
  unitsOfCode number.code

/-- The number nearest to a signed quotient; `none` beyond the finite range. -/
def ofRatio? (negative : Bool) (numerator denominator : Nat) : Option Binary64 :=
  let code := nearestCode numerator denominator
  if finite : code < codeLimit then some ⟨negative, code, finite⟩ else none

/-- The greatest finite magnitude. -/
def greatest (negative : Bool) : Binary64 := ⟨negative, codeLimit - 1, by decide⟩

/-- The number nearest to an integer, clamped to the finite range. -/
def ofInt (value : Int) : Binary64 :=
  let negative := decide (value < 0)
  (ofRatio? negative value.natAbs 1).getD (greatest negative)

/-- Digits times a power of ten, rounded to nearest; `none` beyond the finite
range. Decimal exponents far outside the range are settled by size alone. -/
def ofDecimal? (negative : Bool) (digits : Nat) (digitCount : Nat) (exponent : Int) :
    Option Binary64 :=
  if digits = 0 then some (signedZero negative)
  else if (digitCount : Int) + exponent < -330 then some (signedZero negative)
  else if exponent < 0 then ofRatio? negative digits (tenTo exponent.natAbs)
  else if 310 < exponent then none
  else ofRatio? negative (digits * tenTo exponent.natAbs) 1

/-- Numeric order code: the position on the number line, both zeros at zero. -/
def position (number : Binary64) : Int :=
  if number.negative then -(number.code : Int) else number.code

/-- Numeric equality, in which the two zeros are equal. -/
instance : BEq Binary64 := ⟨fun left right => left.position == right.position⟩

def isInteger (number : Binary64) : Bool :=
  number.units % unitsPerOne == 0

/-- The integer part, toward zero. -/
def truncate (number : Binary64) : Int :=
  let magnitude : Int := ((number.units / unitsPerOne : Nat) : Int)
  if number.negative then -magnitude else magnitude

/-- The least integer that is not below the number. -/
def ceiling (number : Binary64) : Int :=
  if number.negative || number.isInteger then number.truncate
  else number.truncate + 1

def positionOfOne : Int := 1023 * binade

end Binary64

end Wireframe.Number
