import Wireframe.Codec.Basic
import Wireframe.Json.Skip

/-!
Contract: records, the types whose JSON form is an object with known members.

Owns:
- `Field` and `Fields`, a record's members in order;
- `Codec.record`, the codec of a record.

An object may hold its members in any order; unknown ones are passed over. Of
several refusals the one of the earliest member counts, and a missing member
counts only where no member is refused. A list of the members in order stands
for the object, too.
-/

namespace Wireframe.Codec

open Json

/-- How an absent member is read and which values are not written. -/
inductive Presence (α : Type) where
  /-- Always written, and not to be absent. -/
  | required
  /-- Always written; absent, it reads as the value. -/
  | defaulted (value : α)
  /-- Written unless it is omitted; absent, it reads as the value. -/
  | omitted (value : α) (isOmitted : α → Bool)

namespace Presence

def absent {α : Type} : Presence α → Option α
  | .required => none
  | .defaulted value => some value
  | .omitted value _ => some value

def isWritten {α : Type} : Presence α → α → Bool
  | .omitted _ isOmitted, value => !isOmitted value
  | _, _ => true

end Presence

/-- A member of a record. It is written under `name` and read under its aliases,
too. -/
structure Field (α : Type) where
  name : String
  codec : Codec α
  presence : Presence α
  aliases : List String := []

namespace Field

/-- A member that has to be present. -/
def needed {α : Type} (name : String) (codec : Codec α) : Field α :=
  ⟨name, codec, .required, []⟩

/-- A member that may be absent or null and is written when it has a value. -/
def optional {α : Type} (name : String) (codec : Codec α) : Field (Option α) :=
  ⟨name, codec.option, .omitted none Option.isNone, []⟩

/-- A member that is always written and, absent, reads as a fixed value. -/
def defaulting {α : Type} (name : String) (codec : Codec α) (value : α) : Field α :=
  ⟨name, codec, .defaulted value, []⟩

/-- A list that is written unless it is empty. -/
def unlessEmpty {α : Type} (name : String) (codec : Codec (List α)) : Field (List α) :=
  ⟨name, codec, .omitted [] List.isEmpty, []⟩

end Field

/-- The result of looking for a member: a value, an absence that is not
admitted, or a refusal, with the place of the refused member. -/
inductive Outcome (α : Type) where
  | found (value : α)
  | missing (name : String)
  | refused (place : Nat) (error : DecodeError)

namespace Outcome

/-- Both results: the refusal of the earlier member, else the first absence,
else both values. -/
def pair {α β : Type} : Outcome α → Outcome β → Outcome (α × β)
  | .refused left leftError, .refused right rightError =>
      if right < left then .refused right rightError else .refused left leftError
  | .refused place error, _ => .refused place error
  | _, .refused place error => .refused place error
  | .missing name, _ => .missing name
  | _, .missing name => .missing name
  | .found left, .found right => .found (left, right)

def toExcept {α : Type} : Outcome α → Except DecodeError α
  | .found value => .ok value
  | .missing name => .error (.missingField name)
  | .refused _ error => .error error

end Outcome

namespace Field

variable {α : Type}

def answersTo (field : Field α) (key : String) : Bool :=
  key == field.name || field.aliases.contains key

/-- The values given for the member, each with its place in the object. -/
def given (field : Field α) (members : List (String × Value)) : List (Nat × Value) :=
  members.zipIdx.filterMap fun (member, place) =>
    if field.answersTo member.1 then some (place, member.2) else none

def find (field : Field α) (members : List (String × Value)) : Outcome α :=
  match field.given members with
  | [] =>
      match field.presence.absent with
      | some value => .found value
      | none => .missing field.name
  | (place, value) :: others =>
      match field.codec.decode value, others with
      | .error error, _ => .refused place error
      | .ok value, [] => .found value
      | .ok _, (second, _) :: _ => .refused second (.duplicateField field.name)

/-- The member as it is written, if it is. -/
def encode (field : Field α) (value : α) : List (String × Value) :=
  if field.presence.isWritten value then [(field.name, field.codec.encode value)] else []

end Field

/-- The members of a record in the order in which they are written. The index
is the type of all their values together. -/
inductive Fields : Type → Type 1 where
  | nil : Fields Unit
  | cons {α β : Type} (head : Field α) (tail : Fields β) : Fields (α × β)

namespace Fields

def size {γ : Type} : Fields γ → Nat
  | .nil => 0
  | .cons _ tail => tail.size + 1

def encode {γ : Type} : Fields γ → γ → List (String × Value)
  | .nil, _ => []
  | .cons head tail, (value, values) => head.encode value ++ tail.encode values

def find {γ : Type} : Fields γ → List (String × Value) → Outcome γ
  | .nil, _ => .found ()
  | .cons head tail, members => (head.find members).pair (tail.find members)

/-- The members at the start of a list, and the items after them. Absent items
at the end read as absent members. -/
def takeItems {γ : Type} (expected : Expectation) (place : Nat) :
    Fields γ → List Value → Except DecodeError (γ × List Value)
  | .nil, items => .ok ((), items)
  | .cons head tail, item :: items => do
      let value ← head.codec.decode item
      let (values, rest) ← tail.takeItems expected (place + 1) items
      pure ((value, values), rest)
  | .cons head tail, [] =>
      match head.presence.absent with
      | none => .error (.invalidLength place expected)
      | some value => do
          let (values, rest) ← tail.takeItems expected (place + 1) []
          pure ((value, values), rest)

def Slots {γ : Type} : Fields γ → Type
  | .nil => Unit
  | .cons (α := α) _ tail => Option α × tail.Slots

def noSlots {γ : Type} : (fields : Fields γ) → fields.Slots
  | .nil => ()
  | .cons _ tail => ((none, tail.noSlots) : Option _ × tail.Slots)

/-- The values that were met, absent ones filled in. -/
def finish {γ : Type} : (fields : Fields γ) → fields.Slots → Except DecodeError γ
  | .nil, _ => .ok ()
  | .cons head tail, slots => do
      let (slot, slots) : Option _ × tail.Slots := slots
      let value ← match slot, head.presence.absent with
        | some value, _ => pure value
        | none, some value => pure value
        | none, none => throw (.missingField head.name)
      return (value, ← tail.finish slots)

open Scanner Reader

/-- Reads the value that follows a key into its slot, the key already read. An
unknown member is passed over. -/
def readSlot {γ : Type} (depth : Nat) (key : String) :
    (fields : Fields γ) → fields.Slots → Scanner ReadFailure fields.Slots
  | .nil, slots => do
      grammar colon
      grammar skip
      pure slots
  | .cons head tail, slots => do
      let (slot, slots) : Option _ × tail.Slots := slots
      let filled : Option _ × tail.Slots ←
        if head.answersTo key then
          match slot with
          | some _ => Codec.refuseObject (.duplicateField head.name)
          | none => do
              grammar colon
              pure (some (← head.codec.read depth), slots)
        else pure (slot, ← tail.readSlot depth key slots)
      pure filled

def readMembers {γ : Type} (fields : Fields γ) (depth : Nat) :
    Nat → Bool → fields.Slots → Scanner ReadFailure fields.Slots
  | 0, _, slots => pure slots
  | bound + 1, first, slots => do
      if ← grammar (objectContinues first) then
        eat
        let key ← grammar Scanner.string
        let slots ← fields.readSlot depth key slots
        fields.readMembers depth bound false slots
      else pure slots

/-- Reads an object, its opening brace already read. -/
def readObject {γ : Type} (fields : Fields γ) (depth : Nat) : Scanner ReadFailure γ := do
  let start ← get
  let slots ← fields.readMembers depth (start.rest.length + 1) true fields.noSlots
  match fields.finish slots with
  | .error error => Codec.refuseObject error
  | .ok values =>
      grammar objectEnd
      pure values

/-- Reads the members at the start of a list, its opening bracket already read. -/
def readItems {γ : Type} (expected : Expectation) (depth place : Nat) :
    Fields γ → Scanner ReadFailure γ
  | .nil => pure ()
  | .cons head tail => do
      let value ←
        if ← grammar (listContinues (place == 0)) then head.codec.read depth
        else
          match head.presence.absent with
          | some value => pure value
          | none => Codec.refuseList (.invalidLength place expected)
      return (value, ← tail.readItems expected depth (place + 1))

end Fields

open Scanner Reader

/-- The decoded members of a record, from an object or a list. -/
def decodeFields {γ : Type} (label : String) (fields : Fields γ) :
    Value → Except DecodeError γ
  | .object members => (fields.find members).toExcept
  | .array items => do
      let (values, rest) ← fields.takeItems (.recordOfLength label fields.size) 0 items
      if rest.isEmpty then pure values
      else throw (.invalidLength items.length .fewerItems)
  | value => .error (.invalidType (Found.ofValue value) (.record label))

def readRecord {α γ : Type} (label : String) (fields : Fields γ) (build : γ → α) :
    Reader α := fun depth => do
  match ← peekToken with
  | some '\x7b' =>
      opened depth fun depth => return build (← fields.readObject depth)
  | some '[' =>
      opened depth fun depth => do
        let values ← fields.readItems (.recordOfLength label fields.size) depth 0
        grammar listEnd
        pure (build values)
  | _ => mismatch (.record label)

/-- A record, named in messages by `label`: `split` takes it apart into the
values of its members and `build` puts it together. -/
def record {α γ : Type} (label : String) (fields : Fields γ) (build : γ → α)
    (split : α → γ) : Codec α where
  encode value := .object (fields.encode (split value))
  decode value := (decodeFields label fields value).map build
  read := readRecord label fields build

end Wireframe.Codec
