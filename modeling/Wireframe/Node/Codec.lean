import Wireframe.Node.Basic

/-!
Contract: the JSON form of nodes.

Owns:
- the members of a node, its children last;
- `Node.codec`. Encoding and decoding recurse on the tree and on the value;
  reading from text recurses on the depth that is left, which the opening brace
  of a node uses up.
-/

namespace Wireframe

open Codec Json

def Kind.codec : Codec Kind :=
  .choice Kind.name Kind.all

namespace Attributes

/-- The values of all members but the children, and more. -/
abbrev MembersThen (β : Type) : Type :=
  String × Kind × Option String × Option String × Option String × Option String ×
    Option Media × Codec.Dict String × Option Constraints × Layout × Style ×
    Option State × List Event × β

abbrev Members := MembersThen Unit

/-- All members but the children, and more. -/
def fieldsThen {β : Type} (tail : Fields β) : Fields (MembersThen β) :=
  .cons (.needed "id" .string) <|
  .cons (.needed "type" Kind.codec) <|
  .cons (.optional "name" .string) <|
  .cons (.optional "role" .string) <|
  .cons (.optional "text" .string) <|
  .cons (.optional "placeholder" .string) <|
  .cons (.optional "media" Media.codec) <|
  .cons (.unlessEmpty "bindings" (.dict .string)) <|
  .cons (.optional "constraints" Constraints.codec) <|
  .cons (.defaulting "layout" Layout.codec {}) <|
  .cons (.defaulting "style" Style.codec {}) <|
  .cons (.optional "state" State.codec) <|
  .cons (.defaulting "events" (.list Event.codec) []) tail

def fields : Fields Members := fieldsThen .nil

def build : Members → Attributes
  | (id, kind, name, role, text, placeholder, media, bindings, constraints, layout, style,
      state, events, ()) =>
    ⟨id, kind, name, role, text, placeholder, media, bindings, constraints, layout, style,
      state, events⟩

def split (attributes : Attributes) : Members :=
  (attributes.id, attributes.kind, attributes.name, attributes.role, attributes.text,
    attributes.placeholder, attributes.media, attributes.bindings, attributes.constraints,
    attributes.layout, attributes.style, attributes.state, attributes.events, ())

end Attributes

namespace Node

def label : String := "LayoutNode"

/-- The number of members, children included. -/
def memberCount : Nat := Attributes.fields.size + 1

mutual

def encode : Node → Value
  | mk attributes children =>
      .object (Attributes.fields.encode attributes.split ++
        [("children", .array (encodeAll children))])

def encodeAll : List Node → List Value
  | [] => []
  | node :: rest => encode node :: encodeAll rest

end

/-- The place of the first member called `children`, from a given place on. -/
def childrenPlace? (place : Nat) : List (String × Value) → Option Nat
  | [] => none
  | (key, _) :: rest =>
      if key = "children" then some place else childrenPlace? (place + 1) rest

mutual

def decode : Value → Except DecodeError Node
  | .object members =>
      let found := (Attributes.fields.find members).pair (findChildren 0 members)
      found.toExcept.map fun (attributes, children) => mk (.build attributes) children
  | .array items => do
      let (attributes, rest) ←
        Attributes.fields.takeItems (.recordOfLength label memberCount) 0 items
      let children ← itemChildren Attributes.fields.size items
      if rest.length ≤ 1 then pure (mk (.build attributes) children)
      else throw (.invalidLength items.length .fewerItems)
  | value => .error (.invalidType (Found.ofValue value) (.record label))

def decodeChildren : Value → Except DecodeError (List Node)
  | .array items => decodeAll items
  | value => .error (.invalidType (Found.ofValue value) .sequence)

def decodeAll : List Value → Except DecodeError (List Node)
  | [] => .ok []
  | item :: rest => do
      let node ← decode item
      return node :: (← decodeAll rest)

/-- The children among the members of an object, from a given place on. -/
def findChildren (place : Nat) : List (String × Value) → Outcome (List Node)
  | [] => .found []
  | (key, value) :: rest =>
      if key = "children" then
        match decodeChildren value, childrenPlace? (place + 1) rest with
        | .error error, _ => .refused place error
        | .ok children, none => .found children
        | .ok _, some second => .refused second (.duplicateField "children")
      else findChildren (place + 1) rest

/-- The children in the item with a given index, if there is one. -/
def itemChildren : Nat → List Value → Except DecodeError (List Node)
  | _, [] => .ok []
  | 0, item :: _ => decodeChildren item
  | index + 1, _ :: rest => itemChildren index rest

end

def ofMembers : Attributes.MembersThen (List Node × Unit) → Node
  | (id, kind, name, role, text, placeholder, media, bindings, constraints, layout, style,
      state, events, children, ()) =>
    mk ⟨id, kind, name, role, text, placeholder, media, bindings, constraints, layout, style,
      state, events⟩ children

/-- Reads a tree with fewer than `bound` levels. -/
def readBounded : Nat → Reader Node
  | 0, _ => Reader.grammar (Scanner.failNext .tooDeep)
  | bound + 1, depth => do
      let child : Codec Node := ⟨encode, decode, readBounded bound⟩
      let fields := Attributes.fieldsThen
        (.cons (.defaulting "children" (.list child) []) .nil)
      Codec.readRecord label fields ofMembers depth

/-- A tree of nodes. Every level opens at least one brace, so the depth that is
left bounds the levels. -/
def codec : Codec Node where
  encode := encode
  decode := decode
  read depth := readBounded (depth + 1) depth

end Node

end Wireframe
