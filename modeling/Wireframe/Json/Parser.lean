import Wireframe.Json.Token

/-!
Contract: values from JSON text.

Owns:
- the nesting limit;
- `Value.scan`, a value at a cursor, and `parse`, the value of a whole text.

Objects keep the last of equal keys and list their keys in order.
-/

namespace Wireframe.Json

/-- The greatest number of lists and objects inside one another. -/
def nestingLimit : Nat := 127

namespace Scanner

/-- A scalar, by its first character; anything else is no value. -/
def scalar : Scanner Failure Value := do
  match ← peek with
  | some 'n' => eat; word ['u', 'l', 'l']; pure .null
  | some 't' => eat; word ['r', 'u', 'e']; pure (.bool true)
  | some 'f' => eat; word ['a', 'l', 's', 'e']; pure (.bool false)
  | some '-' => eat; return (← number true).toValue
  | some '"' => eat; return .string (← string)
  | some char =>
      if char.isDigit then return (← number false).toValue
      else failNext .expectedValue
  | none => failNext .endInValue

/-- One more item of a list, if there is one. -/
def listItem (item : Scanner Failure Value) (first : Bool) :
    Scanner Failure (Option Value) := do
  if ← listContinues first then return some (← item) else pure none

/-- One more member of an object, if there is one. -/
def objectMember (item : Scanner Failure Value) (first : Bool) :
    Scanner Failure (Option (String × Value)) := do
  if ← objectContinues first then
    eat
    let key ← string
    colon
    let value ← item
    pure (some (key, value))
  else pure none

/-- A list, its opening bracket not yet read. -/
def list (item : Scanner Failure Value) : Scanner Failure Value := do
  eat
  let items ← collectAll (listItem item)
  listEnd
  pure (.array items)

/-- An object, its opening brace not yet read. -/
def object (item : Scanner Failure Value) : Scanner Failure Value := do
  eat
  let members ← collectAll (objectMember item)
  objectEnd
  pure (.object (Value.orderMembers members))

/-- A value with at most `depth` lists and objects inside one another. -/
def value (depth : Nat) : Scanner Failure Value := do
  match ← peekToken with
  | some '[' =>
      match depth with
      | 0 => failNext .tooDeep
      | depth + 1 => list (value depth)
  | some '\x7b' =>
      match depth with
      | 0 => failNext .tooDeep
      | depth + 1 => object (value depth)
  | _ => scalar

end Scanner

def parse (text : String) : Except Failure Value :=
  let whole : Scanner Failure Value := do
    let value ← Scanner.value nestingLimit
    Scanner.textEnd
    pure value
  whole.run' (Cursor.start text)

end Wireframe.Json
