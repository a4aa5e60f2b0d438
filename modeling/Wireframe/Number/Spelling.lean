import Wireframe.Number.Shortest

/-!
Contract: number texts, each format's decisions in one record.

Owns:
- positional and scientific spellings of a decimal;
- `Spelling.data`, the spelling of numbers in data text;
- `Spelling.markup`, the spelling of numbers in generated markup.
-/

namespace Wireframe.Number

/-- The decisions of a number format. An absent end leaves the range of
exponents written positionally open on that side. -/
structure Spelling where
  /-- The least leading exponent that is written positionally. -/
  positionalFrom : Option Int
  /-- The least leading exponent that is too large for that. -/
  positionalBelow : Option Int
  /-- What follows the digits of a whole number written positionally. -/
  wholeMark : List Char
  tie : Tie

namespace Spelling

/-- Numbers in data text: positional for leading exponents from -5 to 15, with
a fraction digit kept, otherwise with a signed exponent. -/
def data : Spelling := ⟨some (-5), some 16, ['.', '0'], .toEven⟩

/-- Numbers in markup: always positional, a whole number without a point. -/
def markup : Spelling := ⟨none, none, [], .up⟩

def isPositional (spelling : Spelling) (exponent : Int) : Bool :=
  (spelling.positionalFrom.all fun least => decide (least ≤ exponent)) &&
    (spelling.positionalBelow.all fun limit => decide (exponent < limit))

def positional (wholeMark digits : List Char) (exponent : Int) : List Char :=
  if exponent < 0 then
    ['0', '.'] ++ List.replicate (exponent.natAbs - 1) '0' ++ digits
  else
    let wholeDigits := exponent.toNat + 1
    if digits.length ≤ wholeDigits then
      digits ++ List.replicate (wholeDigits - digits.length) '0' ++ wholeMark
    else
      digits.take wholeDigits ++ '.' :: digits.drop wholeDigits

/-- One digit, the others after a point, and a signed exponent. -/
def scientific (digits : List Char) (exponent : Int) : List Char :=
  let fraction := match digits.drop 1 with
    | [] => []
    | rest => '.' :: rest
  let sign := if exponent < 0 then '-' else '+'
  digits.take 1 ++ fraction ++ 'e' :: sign :: Nat.toDigits 10 exponent.natAbs

/-- The text of a number; negative zero keeps its sign. -/
def write (spelling : Spelling) (number : Binary64) : List Char :=
  let decimal := shortest spelling.tie number
  let magnitude :=
    if spelling.isPositional decimal.exponent then
      positional spelling.wholeMark decimal.digits decimal.exponent
    else
      scientific decimal.digits decimal.exponent
  if number.negative then '-' :: magnitude else magnitude

end Spelling

end Wireframe.Number
