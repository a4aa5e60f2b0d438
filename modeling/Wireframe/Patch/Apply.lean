import Wireframe.Patch.Basic
import Wireframe.Document.Basic

/-!
Contract: what a patch does to a component tree.

Owns:
- `Payload.merge`, the overwriting of members that a payload carries;
- `Patch.apply`, one edit of the first node in pre-order that bears the id;
- `applyAll`, a row of edits that stops at the first failure.

A patch whose target is not in the tree changes nothing. A failure leaves no
tree behind, so none is half edited.
-/

namespace Wireframe

/-- Why a patch fails. -/
inductive PatchError where
  | rootRemoval (targetId : String)
  | missingPayload (targetId : String)
  | incompletePayload (targetId field : String)
deriving DecidableEq

namespace PatchError

def message : PatchError → String
  | .rootRemoval targetId => s!"Cannot remove the root node: {targetId}"
  | .missingPayload targetId => s!"Insert into {targetId} requires a payload"
  | .incompletePayload targetId field =>
      s!"Insert into {targetId} requires payload field '" ++ field ++ "'"

end PatchError

namespace Payload

/-- The node with every member that the payload carries put in place. -/
def merge (payload : Payload) : Node → Node
  | .mk attributes children =>
      .mk
        { id := payload.id.getD attributes.id
          kind := payload.kind.getD attributes.kind
          name := payload.name.or attributes.name
          role := payload.role.or attributes.role
          text := payload.text.or attributes.text
          placeholder := payload.placeholder.or attributes.placeholder
          media := payload.media.or attributes.media
          bindings := payload.bindings.getD attributes.bindings
          constraints := payload.constraints.or attributes.constraints
          layout := payload.layout.getD attributes.layout
          style := payload.style.getD attributes.style
          state := payload.state.or attributes.state
          events := payload.events.getD attributes.events }
        (payload.children.getD children)

/-- The node that a payload spells; it has to carry an id and a kind. -/
def toNode (payload : Payload) (targetId : String) : Except PatchError Node :=
  match payload.id, payload.kind with
  | none, _ => .error (.incompletePayload targetId "id")
  | some _, none => .error (.incompletePayload targetId "type")
  | some id, some kind => .ok (payload.merge (.mk { id, kind } []))

end Payload

namespace Node

/-- The tree with the node at an index path replaced by its image. A path that
leads nowhere changes nothing. -/
def modifyAt (change : Node → Node) : List Nat → Node → Node
  | [], node => change node
  | index :: path, mk attributes children =>
      mk attributes (children.modify index (modifyAt change path))

/-- The node with another one among its children, at most at their end. -/
def insertChild (position : Nat) (child : Node) : Node → Node
  | mk attributes children =>
      mk attributes (children.insertIdx (min position children.length) child)

/-- The node without one of its children. -/
def removeChild (index : Nat) : Node → Node
  | mk attributes children => mk attributes (children.eraseIdx index)

end Node

namespace Patch

def editAt (patch : Patch) (path : List Nat) (tree : Node) : Except PatchError Node :=
  match patch.operation with
  | .update | .replace =>
      match patch.payload with
      | some payload => .ok (tree.modifyAt payload.merge path)
      | none => .ok tree
  | .insert =>
      match patch.payload with
      | none => .error (.missingPayload patch.targetId)
      | some payload => do
          let child ← payload.toNode patch.targetId
          let position := (patch.position.getD 0).toNat
          pure (tree.modifyAt (Node.insertChild position child) path)
  | .remove =>
      match path.getLast? with
      | none => .error (.rootRemoval patch.targetId)
      | some index => .ok (tree.modifyAt (Node.removeChild index) path.dropLast)

def applyHit (patch : Patch) (tree : Node) : Except PatchError (Node × Bool) :=
  match tree.locate? patch.targetId with
  | none => .ok (tree, false)
  | some path => do
      let edited ← patch.editAt path tree
      pure (edited, true)

def apply (patch : Patch) (tree : Node) : Except PatchError Node :=
  (patch.applyHit tree).map Prod.fst

/-- The tree after all edits in order, or the first failure. -/
def applyAll (patches : List Patch) (tree : Node) : Except PatchError Node :=
  patches.foldlM (fun tree patch => patch.apply tree) tree

end Patch

namespace Document

/-- The document with its tree edited; nothing else changes. -/
def patched (document : Document) (patches : List Patch) : Except PatchError Document :=
  (Patch.applyAll patches document.layoutTree).map fun layoutTree =>
    { document with layoutTree }

end Document

end Wireframe
