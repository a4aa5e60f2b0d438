import Wireframe.Json.Value
import Wireframe.Number.Spelling

/-!
Contract: JSON text from values.

Owns:
- string literals (`stringLiteral`);
- the compact form, without blanks;
- the pretty form, indented by two blanks a level.

Both forms list members in the order in which the value holds them.
-/

namespace Wireframe.Json

open Number

def hexDigit (digit : Nat) : Char :=
  Nat.digitChar (digit % 16)

/-- A character inside a string literal: quote, backslash and control
characters are escaped, all else stands for itself. -/
def escapeChar (char : Char) : List Char :=
  if char = '"' then ['\\', '"']
  else if char = '\\' then ['\\', '\\']
  else if char = '\x08' then ['\\', 'b']
  else if char = '\x0c' then ['\\', 'f']
  else if char = '\n' then ['\\', 'n']
  else if char = '\r' then ['\\', 'r']
  else if char = '\t' then ['\\', 't']
  else if char.toNat < 32 then
    ['\\', 'u', '0', '0', hexDigit (char.toNat / 16), hexDigit char.toNat]
  else [char]

/-- The characters of a quoted string literal. -/
def stringChars (text : String) : List Char :=
  '"' :: (text.toList.flatMap escapeChar ++ ['"'])

/-- A quoted string literal. -/
def stringLiteral (text : String) : String :=
  String.ofList (stringChars text)

/-- Decimal digits of a whole number, with its sign. -/
def integerChars (value : Int) : List Char :=
  if value < 0 then '-' :: Nat.toDigits 10 value.natAbs
  else Nat.toDigits 10 value.natAbs

def separated (separator : List Char) : List (List Char) → List Char
  | [] => []
  | [part] => part
  | part :: rest => part ++ separator ++ separated separator rest

namespace Value

mutual

def compactChars : Value → List Char
  | .null => ['n', 'u', 'l', 'l']
  | .bool true => ['t', 'r', 'u', 'e']
  | .bool false => ['f', 'a', 'l', 's', 'e']
  | .integer number => integerChars number.value
  | .float number => Spelling.data.write number
  | .string text => stringChars text
  | .array items => '[' :: (separated [','] (compactItems items) ++ [']'])
  | .object members => '\x7b' :: (separated [','] (compactMembers members) ++ ['\x7d'])

def compactItems : List Value → List (List Char)
  | [] => []
  | item :: rest => compactChars item :: compactItems rest

def compactMembers : List (String × Value) → List (List Char)
  | [] => []
  | (key, value) :: rest =>
      (stringChars key ++ ':' :: compactChars value) :: compactMembers rest

end

/-- A line break and the blanks that start a line at a nesting level. -/
def lineStart (level : Nat) : List Char :=
  '\n' :: List.replicate (2 * level) ' '

/-- Brackets around parts on lines of their own; none at all when empty. -/
def prettyBlock (opening closing : Char) (level : Nat) : List (List Char) → List Char
  | [] => [opening, closing]
  | parts =>
      opening :: (lineStart (level + 1) ++ separated (',' :: lineStart (level + 1)) parts ++
        lineStart level ++ [closing])

mutual

/-- The characters of the pretty form, the first line at a nesting level. -/
def prettyChars (level : Nat) : Value → List Char
  | .array items => prettyBlock '[' ']' level (prettyItems (level + 1) items)
  | .object members => prettyBlock '\x7b' '\x7d' level (prettyMembers (level + 1) members)
  | value => compactChars value

def prettyItems (level : Nat) : List Value → List (List Char)
  | [] => []
  | item :: rest => prettyChars level item :: prettyItems level rest

def prettyMembers (level : Nat) : List (String × Value) → List (List Char)
  | [] => []
  | (key, value) :: rest =>
      (stringChars key ++ ':' :: ' ' :: prettyChars level value) :: prettyMembers level rest

end

def compact (value : Value) : String :=
  String.ofList value.compactChars

def pretty (value : Value) : String :=
  String.ofList (value.prettyChars 0)

/-- Compact text with every object's keys in order. -/
def canonical (value : Value) : String :=
  value.sortKeys.compact

end Value

end Wireframe.Json
