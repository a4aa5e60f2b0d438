import Wireframe.Number.Binary64

/-!
Contract: the values of JSON data.

Owns:
- `Integer`, the whole numbers that are kept exactly;
- `Value`, its numeric equality and its member look-up;
- `Value.sortKeys`, the form whose objects list their keys in order.

Does not own: text, in either direction.
-/

namespace Wireframe.Json

open Number

/-- The least signed 64-bit integer. -/
def leastInteger : Int := -9223372036854775808

/-- The first integer beyond the unsigned 64-bit ones. -/
def integerLimit : Int := 18446744073709551616

/-- A whole number that fits one of the two 64-bit ranges. -/
structure Integer where
  value : Int
  lower : leastInteger ≤ value
  upper : value < integerLimit
deriving DecidableEq

namespace Integer

/-- The integer with a given value, if it is in range. -/
def ofInt? (value : Int) : Option Integer :=
  if lower : leastInteger ≤ value then
    if upper : value < integerLimit then some ⟨value, lower, upper⟩ else none
  else none

/-- The nearest number with a fraction part. -/
def toBinary64 (integer : Integer) : Binary64 :=
  Binary64.ofInt integer.value

end Integer

/-- A JSON value. Members stand in the order in which they are written; parsed
objects hold each key once, in order. -/
inductive Value where
  | null
  | bool (value : Bool)
  | integer (number : Integer)
  | float (number : Binary64)
  | string (text : String)
  | array (items : List Value)
  | object (members : List (String × Value))

instance : Inhabited Value := ⟨.null⟩

namespace Value

/-- A count of 64 bits. -/
def ofCount (count : UInt64) : Value :=
  .integer ⟨count.toNat, by simp only [leastInteger]; omega,
    by have := count.toNat_lt; simp only [integerLimit]; omega⟩

mutual

/-- Equality of values. Floats are compared numerically, and an integer never
equals a float. -/
def equal : Value → Value → Bool
  | .null, .null => true
  | .bool left, .bool right => left == right
  | .integer left, .integer right => left.value == right.value
  | .float left, .float right => left == right
  | .string left, .string right => left == right
  | .array left, .array right => equalItems left right
  | .object left, .object right => equalMembers left right
  | _, _ => false

def equalItems : List Value → List Value → Bool
  | [], [] => true
  | left :: lefts, right :: rights => equal left right && equalItems lefts rights
  | _, _ => false

def equalMembers : List (String × Value) → List (String × Value) → Bool
  | [], [] => true
  | (leftKey, left) :: lefts, (rightKey, right) :: rights =>
      leftKey == rightKey && equal left right && equalMembers lefts rights
  | _, _ => false

end

instance : BEq Value := ⟨equal⟩

/-- The first member called `key`. -/
def member? (key : String) (members : List (String × Value)) : Option Value :=
  members.lookup key

/-- Adds a member at its place in key order; a member of that name is replaced. -/
def insertMember {α : Type} (key : String) (value : α) :
    List (String × α) → List (String × α)
  | [] => [(key, value)]
  | (otherKey, other) :: rest =>
      if key < otherKey then (key, value) :: (otherKey, other) :: rest
      else if key = otherKey then (key, value) :: rest
      else (otherKey, other) :: insertMember key value rest

/-- The members in key order, the last of equal keys kept. -/
def orderMembers {α : Type} (members : List (String × α)) : List (String × α) :=
  members.foldl (fun ordered member => insertMember member.1 member.2 ordered) []

mutual

/-- The value with the members of every object in key order. -/
def sortKeys : Value → Value
  | .array items => .array (sortItems items)
  | .object members => .object (orderMembers (sortMembers members))
  | value => value

def sortItems : List Value → List Value
  | [] => []
  | item :: rest => sortKeys item :: sortItems rest

def sortMembers : List (String × Value) → List (String × Value)
  | [] => []
  | (key, value) :: rest => (key, sortKeys value) :: sortMembers rest

end

end Value

end Wireframe.Json
