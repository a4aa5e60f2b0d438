import Wireframe.Node.Codec

/-!
Contract: edits of one node of a component tree.

Owns:
- `Payload`, a node of which every member may be absent;
- `Patch`, an operation on the node with a given id;
- their JSON forms, and the ways to make a patch.

Does not own: what a patch does to a tree.
-/

namespace Wireframe

open Codec

/-- A node of which every member may be absent; absent members leave what is
there alone. -/
structure Payload where
  id : Option String := none
  kind : Option Kind := none
  name : Option String := none
  role : Option String := none
  text : Option String := none
  placeholder : Option String := none
  media : Option Media := none
  bindings : Option (Codec.Dict String) := none
  constraints : Option Constraints := none
  layout : Option Layout := none
  style : Option Style := none
  state : Option State := none
  events : Option (List Event) := none
  children : Option (List Node) := none
deriving BEq

namespace Payload

/-- A payload that carries a text alone. -/
def ofText (text : String) : Payload :=
  { text := some text }

/-- The payload that carries all of a node; what the node lacks stays absent. -/
def ofNode (node : Node) : Payload where
  id := some node.attributes.id
  kind := some node.attributes.kind
  name := node.attributes.name
  role := node.attributes.role
  text := node.attributes.text
  placeholder := node.attributes.placeholder
  media := node.attributes.media
  bindings := some node.attributes.bindings
  constraints := node.attributes.constraints
  layout := some node.attributes.layout
  style := some node.attributes.style
  state := node.attributes.state
  events := some node.attributes.events
  children := some node.children

def codec : Codec Payload :=
  Codec.record "NodePatch"
    (.cons (.optional "id" .string) <|
      .cons (.optional "type" Kind.codec) <|
      .cons (.optional "name" .string) <|
      .cons (.optional "role" .string) <|
      .cons (.optional "text" .string) <|
      .cons (.optional "placeholder" .string) <|
      .cons (.optional "media" Media.codec) <|
      .cons (.optional "bindings" (.dict .string)) <|
      .cons (.optional "constraints" Constraints.codec) <|
      .cons (.optional "layout" Layout.codec) <|
      .cons (.optional "style" Style.codec) <|
      .cons (.optional "state" State.codec) <|
      .cons (.optional "events" (.list Event.codec)) <|
      .cons (.optional "children" (.list Node.codec)) .nil)
    (fun (id, kind, name, role, text, placeholder, media, bindings, constraints, layout,
        style, state, events, children, ()) =>
      ⟨id, kind, name, role, text, placeholder, media, bindings, constraints, layout, style,
        state, events, children⟩)
    (fun payload =>
      (payload.id, payload.kind, payload.name, payload.role, payload.text,
        payload.placeholder, payload.media, payload.bindings, payload.constraints,
        payload.layout, payload.style, payload.state, payload.events, payload.children, ()))

end Payload

/-- What is done to the node that a patch names. -/
inductive Operation where
  | replace
  | remove
  | insert
  | update
deriving DecidableEq

namespace Operation

def all : List Operation := [.replace, .remove, .insert, .update]

def name : Operation → String
  | .replace => "replace"
  | .remove => "remove"
  | .insert => "insert"
  | .update => "update"

end Operation

/-- One edit of the first node in pre-order that bears an id. -/
structure Patch where
  targetId : String
  operation : Operation
  payload : Option Payload := none
  position : Option UInt64 := none
deriving BEq

namespace Patch

def update (targetId : String) (payload : Payload) : Patch :=
  { targetId, operation := .update, payload := some payload }

/-- Overwrites members of the target, under the other name. -/
def replace (targetId : String) (payload : Payload) : Patch :=
  { targetId, operation := .replace, payload := some payload }

/-- Adds a child to the target, at the front unless a position is given. -/
def insert (targetId : String) (child : Node) (position : Option UInt64) : Patch :=
  { targetId, operation := .insert, payload := some (.ofNode child), position }

def remove (targetId : String) : Patch :=
  { targetId, operation := .remove }

def codec : Codec Patch :=
  Codec.record "Patch"
    (.cons (.needed "targetId" .string) <|
      .cons (.needed "op" (.choice Operation.name Operation.all)) <|
      .cons (.optional "payload" Payload.codec) <|
      .cons (.optional "position" (.natural "usize")) .nil)
    (fun (targetId, operation, payload, position, ()) =>
      ⟨targetId, operation, payload, position⟩)
    (fun patch => (patch.targetId, patch.operation, patch.payload, patch.position, ()))

end Patch

end Wireframe
