import Wireframe.Number.Binary64

/-!
Contract: the shortest decimal that reads back as a given number.

For one, two, … seventeen digits the two neighbours of the number on that
decimal grid are tested against the interval of values that round to the
number. The first grid with a hit wins, of two hits the nearer one, and a
caller says which way an exact tie goes.
-/

namespace Wireframe.Number

/-- What becomes of a number halfway between two candidates. -/
inductive Tie where
  | toEven
  | up
deriving DecidableEq

/-- The decimal `significand * 10 ^ scale`. -/
structure Decimal where
  significand : Nat
  scale : Int
deriving DecidableEq

namespace Decimal

/-- The decimal digits of the significand, most significant first. -/
def digits (decimal : Decimal) : List Char :=
  Nat.toDigits 10 decimal.significand

def exponent (decimal : Decimal) : Int :=
  decimal.scale + decimal.digits.length - 1

end Decimal

/-- The decimal exponent of the leading digit of a positive magnitude. The
factor `10 ^ 400` lifts every magnitude above one. -/
def leadingExponent (units : Nat) : Int :=
  ((Nat.toDigits 10 (units * tenTo 400 / unitsPerOne)).length : Int) - 401

/-- The better of the two grid neighbours `lower` and `lower + 1` of the
quotient `numerator / denominator`, when both are admitted. -/
def nearerNeighbour (tie : Tie) (lower numerator denominator : Nat) : Nat :=
  let twice := 2 * (numerator - lower * denominator)
  if twice < denominator then lower
  else if denominator < twice then lower + 1
  else match tie with
    | .toEven => lower + lower % 2
    | .up => lower + 1

/-- A grid point as a decimal; one that has grown by a digit is a power of ten. -/
def ofGridPoint (count point : Nat) (scale : Int) : Decimal :=
  if point = tenTo count then ⟨1, scale + count⟩ else ⟨point, scale⟩

/-- The grid point with `count` digits that reads back as the magnitude with
this code, if there is one. The interval's ends belong to it exactly when the
code is even. -/
def hitWithDigits (tie : Tie) (code count : Nat) : Option Decimal :=
  let units := unitsOfCode code
  let scale : Int := leadingExponent units - count + 1
  let enlarge := tenTo (-scale).toNat
  let denominator := unitsPerOne * tenTo scale.toNat
  let numerator := units * enlarge
  let lower := numerator / denominator
  let least := (unitsOfCode (code - 1) + units) * enlarge
  let most := (units + unitsOfCode (code + 1)) * enlarge
  let admits (point : Nat) : Bool :=
    let twice := 2 * point * denominator
    if code % 2 = 0 then decide (least ≤ twice) && decide (twice ≤ most)
    else decide (least < twice) && decide (twice < most)
  match admits lower, admits (lower + 1) with
  | true, true => some (ofGridPoint count (nearerNeighbour tie lower numerator denominator) scale)
  | true, false => some (ofGridPoint count lower scale)
  | false, true => some (ofGridPoint count (lower + 1) scale)
  | false, false => none

/-- The first hit among `count, count + 1, …` digits. -/
def firstHit (tie : Tie) (code : Nat) : Nat → Nat → Option Decimal
  | 0, _ => none
  | attempts + 1, count =>
      match hitWithDigits tie code count with
      | some decimal => some decimal
      | none => firstHit tie code attempts (count + 1)

/-- The shortest decimal for the magnitude of a number; zero is one digit.
Seventeen digits always suffice, so the last alternative is never taken. -/
def shortest (tie : Tie) (number : Binary64) : Decimal :=
  if number.code = 0 then ⟨0, 0⟩
  else (firstHit tie number.code 17 1).getD ⟨number.units, 0⟩

end Wireframe.Number
