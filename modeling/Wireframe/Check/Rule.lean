import Wireframe.Check.Violation
import Wireframe.Calendar.Reading
import Wireframe.Json.Printer

/-!
Contract: shape rules and the violations of a value against them.

Owns:
- `Rule`, a shape as data: scalars with bounds, lists, maps and objects;
- `check`, every violation of a value, in the order of the rule's members.

A rule for nodes contains itself, so the shape of a node is a parameter: its
own members are a list of rules in which `Rule.node` stands for the shape.
-/

namespace Wireframe.Check

open Json Number Calendar

/-- Which numbers are admitted. -/
inductive Bound where
  | any
  | nonNegative
  | positive
  | unit
deriving DecidableEq

namespace Bound

def admits (bound : Bound) (number : Binary64) : Bool :=
  match bound with
  | .any => true
  | .nonNegative => 0 ≤ number.position
  | .positive => 0 < number.position
  | .unit => 0 ≤ number.position && number.position ≤ Binary64.positionOfOne

def describe : Bound → String
  | .any => "expected number"
  | .nonNegative => "expected number >= 0"
  | .positive => "expected number > 0"
  | .unit => "expected number between 0 and 1"

end Bound

/-- When an object's member is looked at. -/
inductive Need where
  | required
  | optional
  /-- Required unless a member of another name is there, which then takes its
  place. Both together are a conflict. -/
  | insteadOf (other : String)
deriving DecidableEq

/-- The shape of a value. -/
inductive Rule where
  | text
  | flag
  | number (bound : Bound)
  | oneOf (names : List String)
  | integer (least : Nat)
  | instant
  | quad
  | anyObject
  | map (entry : Rule)
  | list (item : Rule)
  | object (members : List (String × Need × Rule))
  /-- A node; one that is `partial` may lack its id and kind. -/
  | node (isPartial : Bool)

def kindOf : Value → String
  | .null => "null"
  | .bool _ => "boolean"
  | .integer _ => "number"
  | .float _ => "number"
  | .string _ => "string"
  | .array _ => "array"
  | .object _ => "object"

def shapeRule : String := "shape"

def violation (path message : String) (actual : Option String) : Violation :=
  ⟨shapeRule, .error, path, message, actual⟩

def memberPath (path key : String) : String :=
  path ++ "." ++ key

def itemPath (path : String) (index : Nat) : String :=
  path ++ "[" ++ toString index ++ "]"

def wrongKind (value : Value) (path message : String) : List Violation :=
  [violation path message (some (kindOf value))]

def checkNumber (bound : Bound) (value : Value) (path : String) : List Violation :=
  let within (number : Binary64) : List Violation :=
    if bound.admits number then []
    else [violation path bound.describe (some value.compact)]
  match value with
  | .integer number => within number.toBinary64
  | .float number => within number
  | _ => wrongKind value path bound.describe

/-- The violations of a name that has to be one of some. -/
def checkName (names : List String) (value : Value) (path : String) : List Violation :=
  let message := "expected one of [" ++ ", ".intercalate names ++ "]"
  match value with
  | .string text =>
      if names.contains text then []
      else [violation path message (some ("\"" ++ text ++ "\""))]
  | _ => wrongKind value path message

def checkInteger (least : Nat) (value : Value) (path : String) : List Violation :=
  let refused := [violation path s!"expected integer >= {least}" (some value.compact)]
  match value with
  | .integer number => if (least : Int) ≤ number.value then [] else refused
  | _ => refused

/-- The violations of a timestamp: a text that names one, or milliseconds. -/
def checkInstant (value : Value) (path : String) : List Violation :=
  let accepted := match value with
    | .string text => (Timestamp.parse? text).isSome
    | .integer number => (Timestamp.ofMillis? number.value).isSome
    | _ => false
  if accepted then []
  else [violation path "expected ISO-8601 timestamp or epoch milliseconds"
    (some value.compact)]

/-- What a value's violations are, given a rule and a path. -/
abbrev Checker := Rule → String → List Violation

/-- The checker of the first member with a key. -/
def checkerFor? (key : String) (checkers : List (String × Checker)) : Option Checker :=
  checkers.lookup key

def checkMember (checkers : List (String × Checker)) (path : String) :
    String × Need × Rule → List Violation
  | (key, .required, rule) =>
      match checkerFor? key checkers with
      | some checker => checker rule (memberPath path key)
      | none => [violation (memberPath path key) "required field missing" none]
  | (key, .optional, rule) =>
      match checkerFor? key checkers with
      | some checker => checker rule (memberPath path key)
      | none => []
  | (key, .insteadOf other, rule) =>
      match checkerFor? key checkers, checkerFor? other checkers with
      | some checker, none => checker rule (memberPath path key)
      | some checker, some _ =>
          checker rule (memberPath path key) ++
            [violation (memberPath path other) s!"conflicts with {key}" none]
      | none, some checker => checker rule (memberPath path other)
      | none, none => [violation (memberPath path key) "required field missing" none]

def checkMembers (members : List (String × Need × Rule))
    (checkers : List (String × Checker)) (path : String) : List Violation :=
  members.flatMap (checkMember checkers path)

mutual

/-- Every violation of a value. `shape` gives the members of a node. -/
def check (shape : Bool → List (String × Need × Rule)) :
    Value → Rule → String → List Violation
  | value, .text, path =>
      match value with
      | .string _ => []
      | _ => wrongKind value path "expected string"
  | value, .flag, path =>
      match value with
      | .bool _ => []
      | _ => wrongKind value path "expected boolean"
  | value, .number bound, path => checkNumber bound value path
  | value, .oneOf names, path => checkName names value path
  | value, .integer least, path => checkInteger least value path
  | value, .instant, path => checkInstant value path
  | .array items, .quad, path =>
      if items.length = 4 then checkItems shape items (.number .any) path 0
      else [violation path "expected exactly 4 numbers" (some s!"{items.length} items")]
  | value, .quad, path => wrongKind value path "expected exactly 4 numbers"
  | .array items, .list rule, path => checkItems shape items rule path 0
  | value, .list _, path => wrongKind value path "expected array"
  | .object members, .map rule, path =>
      (checkersOf shape members).flatMap fun (key, checker) =>
        checker rule (memberPath path key)
  | .object members, .object rules, path =>
      checkMembers rules (checkersOf shape members) path
  | .object members, .node isPartial, path =>
      checkMembers (shape isPartial) (checkersOf shape members) path
  | .object _, .anyObject, _ => []
  | value, _, path => wrongKind value path "expected object"

/-- The violations of items, the first of which has a given index. -/
def checkItems (shape : Bool → List (String × Need × Rule)) :
    List Value → Rule → String → Nat → List Violation
  | [], _, _, _ => []
  | item :: rest, rule, path, index =>
      check shape item rule (itemPath path index) ++
        checkItems shape rest rule path (index + 1)

def checkersOf (shape : Bool → List (String × Need × Rule)) :
    List (String × Value) → List (String × Checker)
  | [] => []
  | (key, value) :: rest => (key, check shape value) :: checkersOf shape rest

end

end Wireframe.Check
