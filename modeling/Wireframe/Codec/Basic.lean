import Wireframe.Codec.Error
import Wireframe.Json.Parser

/-!
Contract: types with a JSON form.

Owns:
- `Codec`, a form in three parts: to a value, from a value, from text;
- codecs of scalars, optional values, lists, quadruples, maps and choices.

The reader from text stops at the first thing wrong in text order, whether it
is the grammar or the content. `Codec.decode` looks at a whole value.

Does not own: records, which are built from fields.
-/

namespace Wireframe

open Json Number

namespace Codec

/-- Reads a typed value; at most `depth` lists and objects may still be opened. -/
abbrev Reader (α : Type) := (depth : Nat) → Scanner ReadFailure α

namespace Reader

open Scanner

/-- A step over the grammar alone. -/
def grammar {α : Type} (scanner : Scanner Failure α) : Scanner ReadFailure α :=
  scanner.mapFailure .grammar

def refuse {α : Type} (error : DecodeError) : Scanner ReadFailure α :=
  fun cursor => .error (.content error cursor.offset)

/-- A decoded result, or a refusal at the cursor. -/
def ofExcept {α : Type} : Except DecodeError α → Scanner ReadFailure α
  | .ok value => pure value
  | .error error => refuse error

/-- Refuses whatever comes next. A scalar is read first, so that it can be shown. -/
def mismatch {α : Type} (expected : Expectation) : Scanner ReadFailure α := do
  match ← peek with
  | some '[' => refuse (.invalidType .sequence expected)
  | some '\x7b' => refuse (.invalidType .map expected)
  | _ =>
      let value ← grammar scalar
      refuse (.invalidType (Found.ofValue value) expected)

/-- Opens a list or object: its bracket is consumed unless it is too deep. The
continuation is given the depth that is left. -/
def opened {α : Type} (depth : Nat) (body : Reader α) : Scanner ReadFailure α := do
  match depth with
  | 0 => grammar (failNext .tooDeep)
  | depth + 1 =>
      eat
      body depth

def startsNumber (char : Char) : Bool :=
  char.isDigit || char == '-'

/-- The whole text, read as one value. -/
def run {α : Type} (reader : Reader α) (text : String) : Except ReadFailure α :=
  let whole : Scanner ReadFailure α := do
    let value ← reader nestingLimit
    grammar textEnd
    pure value
  whole.run' (Cursor.start text)

end Reader

end Codec

/-- The JSON form of a type. -/
structure Codec (α : Type) where
  encode : α → Value
  decode : Value → Except Codec.DecodeError α
  read : Codec.Reader α

namespace Codec

open Scanner Reader

/-- Decodes the value that a text spells, in text order. -/
def ofText {α : Type} (codec : Codec α) (text : String) : Except ReadFailure α :=
  codec.read.run text

/-- The compact text of a value with all keys in order. -/
def canonical {α : Type} (codec : Codec α) (value : α) : String :=
  (codec.encode value).canonical

/-- Any value, kept as it is, its keys in order. -/
def json : Codec Value where
  encode value := value
  decode value := .ok value
  read depth := grammar (Scanner.value depth)

/-- Any object, kept as it is. -/
def jsonObject : Codec (List (String × Value)) where
  encode members := .object members
  decode
    | .object members => .ok members
    | value => .error (.invalidType (Found.ofValue value) .map)
  read depth := do
    match ← peekToken with
    | some '\x7b' =>
        match ← grammar (Scanner.value depth) with
        | .object members => pure members
        | _ => pure []
    | _ => mismatch .map

def string : Codec String where
  encode text := .string text
  decode
    | .string text => .ok text
    | value => .error (.invalidType (Found.ofValue value) .string)
  read _ := do
    match ← peekToken with
    | some '"' =>
        eat
        grammar Scanner.string
    | _ => mismatch .string

def boolean : Codec Bool where
  encode value := .bool value
  decode
    | .bool value => .ok value
    | value => .error (.invalidType (Found.ofValue value) .boolean)
  read _ := do
    match ← peekToken with
    | some 't' | some 'f' =>
        match ← grammar scalar with
        | .bool value => pure value
        | _ => mismatch .boolean
    | _ => mismatch .boolean

/-- The number of a value; an integer is rounded. -/
def decodeDouble : Value → Except DecodeError Binary64
  | .integer number => .ok number.toBinary64
  | .float number => .ok number
  | value => .error (.invalidType (Found.ofValue value) .double)

/-- A number, written with a fraction or an exponent. -/
def double : Codec Binary64 where
  encode number := .float number
  decode := decodeDouble
  read _ := do
    match ← peekToken with
    | some char =>
        if startsNumber char then ofExcept (decodeDouble (← grammar scalar))
        else mismatch .double
    | none => mismatch .double

def decodeNatural (label : String) : Value → Except DecodeError UInt64
  | .integer number =>
      if number.value < 0 then
        .error (.invalidValue (.integer number.value) (.natural label))
      else .ok (.ofNat number.value.toNat)
  | value => .error (.invalidType (Found.ofValue value) (.natural label))

/-- A count of 64 bits, named in messages by `label`. -/
def natural (label : String) : Codec UInt64 where
  encode count := .ofCount count
  decode := decodeNatural label
  read _ := do
    match ← peekToken with
    | some char =>
        if startsNumber char then ofExcept (decodeNatural label (← grammar scalar))
        else mismatch (.natural label)
    | none => mismatch (.natural label)

def option {α : Type} (codec : Codec α) : Codec (Option α) where
  encode
    | none => .null
    | some value => codec.encode value
  decode
    | .null => .ok none
    | value => (codec.decode value).map some
  read depth := do
    match ← peekToken with
    | some 'n' =>
        eat
        grammar (word ['u', 'l', 'l'])
        pure none
    | _ => return some (← codec.read depth)

/-- One more item of a list, if there is one. -/
def readItem {α : Type} (item : Scanner ReadFailure α) (first : Bool) :
    Scanner ReadFailure (Option α) := do
  if ← grammar (listContinues first) then return some (← item) else pure none

/-- Items in order. -/
def list {α : Type} (codec : Codec α) : Codec (List α) where
  encode items := .array (items.map codec.encode)
  decode
    | .array items => items.mapM codec.decode
    | value => .error (.invalidType (Found.ofValue value) .sequence)
  read depth := do
    match ← peekToken with
    | some '[' =>
        opened depth fun depth => do
          let items ← collectAll (readItem (codec.read depth))
          grammar listEnd
          pure items
    | _ => mismatch .sequence

/-- Four values of one kind, around a box from its top clockwise. -/
structure Quad (α : Type) where
  top : α
  right : α
  bottom : α
  left : α
deriving BEq

/-- The offset at which a list is left after a refusal inside it: past blanks
and the bracket or comma there. -/
def offsetAfterList (cursor : Cursor) : Nat :=
  let skip (cursor : Cursor) : Cursor :=
    match (eatWhile isBlank : Scanner Failure _) cursor with
    | .ok (_, cursor) => cursor
    | .error _ => cursor
  let cursor := skip cursor
  match cursor.rest with
  | ']' :: _ => cursor.advance.offset
  | ',' :: _ => (skip cursor.advance).offset
  | _ => cursor.offset

/-- The offset at which an object is left after a refusal inside it: past blanks
and the brace there. -/
def offsetAfterObject (cursor : Cursor) : Nat :=
  match (peekToken : Scanner Failure _) cursor with
  | .ok (some '\x7d', cursor) => cursor.advance.offset
  | .ok (_, cursor) => cursor.offset
  | .error _ => cursor.offset

/-- Refuses a list, which is left. -/
def refuseList {α : Type} (error : DecodeError) : Scanner ReadFailure α :=
  fun cursor => .error (.content error (offsetAfterList cursor))

/-- Refuses an object, which is left. -/
def refuseObject {α : Type} (error : DecodeError) : Scanner ReadFailure α :=
  fun cursor => .error (.content error (offsetAfterObject cursor))

def readQuadItem {α : Type} (item : Scanner ReadFailure α) (index : Nat) :
    Scanner ReadFailure α := do
  if ← grammar (listContinues (index == 0)) then item
  else refuseList (.invalidLength index .quad)

/-- Exactly four items. The items present are decoded before their number is
found wrong. -/
def quad {α : Type} (codec : Codec α) : Codec (Quad α) where
  encode box := .array
    [codec.encode box.top, codec.encode box.right, codec.encode box.bottom,
      codec.encode box.left]
  decode
    | .array items => do
        match ← (items.take 4).mapM codec.decode with
        | [top, right, bottom, left] =>
            if items.length = 4 then pure ⟨top, right, bottom, left⟩
            else throw (.invalidLength items.length .fewerItems)
        | few => throw (.invalidLength few.length .quad)
    | value => .error (.invalidType (Found.ofValue value) .quad)
  read depth := do
    match ← peekToken with
    | some '[' =>
        opened depth fun depth => do
          let top ← readQuadItem (codec.read depth) 0
          let right ← readQuadItem (codec.read depth) 1
          let bottom ← readQuadItem (codec.read depth) 2
          let left ← readQuadItem (codec.read depth) 3
          grammar listEnd
          pure ⟨top, right, bottom, left⟩
    | _ => mismatch .quad

/-- A map from texts, in key order. -/
abbrev Dict (α : Type) := List (String × α)

/-- One more entry of a map, if there is one. -/
def readEntry {α : Type} (value : Scanner ReadFailure α) (first : Bool) :
    Scanner ReadFailure (Option (String × α)) := do
  if ← grammar (objectContinues first) then
    eat
    let key ← grammar Scanner.string
    grammar colon
    return some (key, ← value)
  else pure none

def decodeEntries {α : Type} (decode : Value → Except DecodeError α) :
    List (String × Value) → Except DecodeError (Dict α)
  | [] => .ok []
  | (key, value) :: rest => do
      let decoded ← decode value
      return (key, decoded) :: (← decodeEntries decode rest)

def dict {α : Type} (codec : Codec α) : Codec (Dict α) where
  encode entries := .object (entries.map fun entry => (entry.1, codec.encode entry.2))
  decode
    | .object members => do
        return Value.orderMembers (← decodeEntries codec.decode members)
    | value => .error (.invalidType (Found.ofValue value) .map)
  read depth := do
    match ← peekToken with
    | some '\x7b' =>
        opened depth fun depth => do
          let entries ← collectAll (readEntry (codec.read depth))
          grammar objectEnd
          pure (Value.orderMembers entries)
    | _ => mismatch .map

def decodeUnit : Value → Except DecodeError Unit
  | .null => .ok ()
  | value => .error (.invalidType (Found.ofValue value) .unit)

def readUnit : Scanner ReadFailure Unit := do
  match ← peekToken with
  | some 'n' =>
      eat
      grammar (word ['u', 'l', 'l'])
  | _ => mismatch .unit

/-- A choice among named constants, written as its name. An object whose only
member has that name and holds null stands for it too. -/
def choice {α : Type} (name : α → String) (all : List α) : Codec α :=
  let named (text : String) : Except DecodeError α :=
    match all.find? (fun constant => name constant == text) with
    | some constant => .ok constant
    | none => .error (.unknownVariant text (all.map name))
  { encode := fun constant => .string (name constant)
    decode := fun
      | .string text => named text
      | .object [(key, value)] => do
          let constant ← named key
          decodeUnit value
          pure constant
      | .object _ => .error (.invalidValue .map .singleMember)
      | value => .error (.invalidType (Found.ofValue value) .choice)
    read := fun depth => do
      match ← peekToken with
      | some '"' =>
          eat
          ofExcept (named (← grammar Scanner.string))
      | some '\x7b' =>
          opened depth fun _ => do
            unless ← grammar (objectContinues true) do
              grammar (failNext .expectedValue)
            eat
            let constant ← ofExcept (named (← grammar Scanner.string))
            grammar colon
            readUnit
            match ← peekToken with
            | some '\x7d' =>
                eat
                pure constant
            | some _ => grammar (failHere .expectedValue)
            | none => grammar (failHere .endInObject)
      | some _ => grammar (failNext .expectedValue)
      | none => grammar (failNext .endInValue) }

end Codec

end Wireframe
