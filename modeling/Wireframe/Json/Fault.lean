/-!
Contract: what can be wrong with JSON text, and where.

Owns:
- `Fault`, the causes, their wording and their category;
- `Failure`, a fault at a byte offset;
- `Position`, the line and column of a byte offset.
-/

namespace Wireframe.Json

/-- How a refusal is classified. -/
inductive Category where
  | endOfText
  | grammar
  | content
deriving DecidableEq

namespace Category

def name : Category → String
  | .endOfText => "eof"
  | .grammar => "syntax"
  | .content => "data"

end Category

/-- A departure from the grammar. -/
inductive Fault where
  | endInList
  | endInObject
  | endInString
  | endInValue
  | expectedColon
  | expectedListCommaOrEnd
  | expectedObjectCommaOrEnd
  | expectedWord
  | expectedValue
  | invalidEscape
  | invalidNumber
  | numberOutOfRange
  | controlCharacter
  | keyNotString
  | loneSurrogate
  | trailingComma
  | trailingCharacters
  | endOfSurrogate
  | tooDeep
deriving DecidableEq

namespace Fault

def message : Fault → String
  | .endInList => "EOF while parsing a list"
  | .endInObject => "EOF while parsing an object"
  | .endInString => "EOF while parsing a string"
  | .endInValue => "EOF while parsing a value"
  | .expectedColon => "expected `:`"
  | .expectedListCommaOrEnd => "expected `,` or `]`"
  | .expectedObjectCommaOrEnd => "expected `,` or `\x7d`"
  | .expectedWord => "expected ident"
  | .expectedValue => "expected value"
  | .invalidEscape => "invalid escape"
  | .invalidNumber => "invalid number"
  | .numberOutOfRange => "number out of range"
  | .controlCharacter =>
      "control character (\\u0000-\\u001F) found while parsing a string"
  | .keyNotString => "key must be a string"
  | .loneSurrogate => "lone leading surrogate in hex escape"
  | .trailingComma => "trailing comma"
  | .trailingCharacters => "trailing characters"
  | .endOfSurrogate => "unexpected end of hex escape"
  | .tooDeep => "recursion limit exceeded"

/-- Text that merely stops early is told apart from text that is wrong. -/
def category : Fault → Category
  | .endInList | .endInObject | .endInString | .endInValue => .endOfText
  | _ => .grammar

end Fault

/-- A fault and the number of bytes before the place it is reported at. -/
structure Failure where
  fault : Fault
  offset : Nat
deriving DecidableEq

/-- A place in a text: lines count from one, columns are bytes after the last
line break. -/
structure Position where
  line : Nat
  column : Nat
deriving DecidableEq

namespace Position

/-- The position `remaining` bytes further on. -/
def advance (position : Position) (remaining : Nat) : List Char → Position
  | [] => position
  | char :: rest =>
      if remaining = 0 then position
      else if char = '\n' then advance ⟨position.line + 1, 0⟩ (remaining - 1) rest
      else
        let width := min char.utf8Size remaining
        advance ⟨position.line, position.column + width⟩ (remaining - width) rest

def ofOffset (text : String) (offset : Nat) : Position :=
  advance ⟨1, 0⟩ offset text.toList

def suffix (position : Position) : String :=
  s!" at line {position.line} column {position.column}"

/-- The first count that does not fit 64 bits. -/
def countLimit : Nat := 18446744073709551616

/-- The rest of some reversed characters after at least one digit and a fixed
part. The digits have to spell a count that fits 64 bits. -/
def dropCount (reversed mark : List Char) : Option (List Char) :=
  let digits := (reversed.takeWhile Char.isDigit).reverse
  let count := digits.foldl (fun total digit => 10 * total + (digit.toNat - '0'.toNat)) 0
  let rest := reversed.dropWhile Char.isDigit
  if digits.isEmpty || countLimit ≤ count then none
  else if mark.isPrefixOf rest then some (rest.drop mark.length) else none

/-- A message without a place at its end: places are carried apart from the
message. -/
def dropSuffix (message : String) : String :=
  let reversed := message.toList.reverse
  let shortened := do
    let upToColumn ← dropCount reversed " column ".toList.reverse
    dropCount upToColumn " at line ".toList.reverse
  match shortened with
  | some rest => String.ofList rest.reverse
  | none => message

end Position

end Wireframe.Json
