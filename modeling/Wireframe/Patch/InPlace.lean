import Wireframe.Patch.Apply

/-!
Contract: a patch as a sequence of steps on one owned tree.

Owns:
- `InPlace`, steps that read and overwrite a tree and may stop half-way;
- the steps of an edit, in which every child index is checked before it is used;
- `Patch.applyInPlace`, the whole edit;
- a row of edits on the tree at hand, and the same on a copy of it.

Does not own: that the steps do what `Patch.applyHit` says.

Nothing is undone when a step stops: the tree is left as the steps before it
made it.
-/

namespace Wireframe

/-- Why an edit in place stops. -/
inductive Stop where
  | failed (error : PatchError)
  | outOfRange (index length : Nat)
deriving DecidableEq

/-- Steps on one tree; one that stops leaves the tree as it is by then. -/
abbrev InPlace (α : Type) := ExceptT Stop (StateM Node) α

namespace InPlace

variable {α : Type}

def fail (error : PatchError) : InPlace α :=
  throw (.failed error)

/-- The steps on the child at an index, which puts back what they leave of it. -/
def onChild (steps : InPlace α) (index : Nat) : InPlace α := fun tree =>
  if inRange : index < tree.children.length then
    let (outcome, child) := steps tree.children[index]
    (outcome, .mk tree.attributes (tree.children.set index child))
  else
    (.error (.outOfRange index tree.children.length), tree)

/-- The steps on the node at a path, walked down from the root. -/
def onNodeAt (path : List Nat) (steps : InPlace α) : InPlace α :=
  path.foldr (fun index below => onChild below index) steps

/-- Puts a child before the one at an index, or behind the last. -/
def insertAt (index : Nat) (child : Node) : InPlace Unit := do
  let parent ← get
  if index ≤ parent.children.length then
    set (Node.mk parent.attributes (parent.children.insertIdx index child))
  else
    throw (.outOfRange index parent.children.length)

/-- Takes the child at an index away. -/
def removeAt (index : Nat) : InPlace Unit := do
  let parent ← get
  if index < parent.children.length then
    set (Node.mk parent.attributes (parent.children.eraseIdx index))
  else
    throw (.outOfRange index parent.children.length)

end InPlace

namespace Patch

open InPlace

def editInPlace (patch : Patch) (path : List Nat) : InPlace Unit :=
  match patch.operation with
  | .update | .replace =>
      match patch.payload with
      | some payload => onNodeAt path (modify payload.merge)
      | none => pure ()
  | .insert =>
      match patch.payload with
      | none => fail (.missingPayload patch.targetId)
      | some payload =>
          match payload.toNode patch.targetId with
          | .error error => fail error
          | .ok child => onNodeAt path do
              let parent ← get
              insertAt (min (patch.position.getD 0).toNat parent.children.length) child
  | .remove =>
      match path.getLast? with
      | none => fail (.rootRemoval patch.targetId)
      | some index => onNodeAt path.dropLast (removeAt index)

/-- The patch applied to the tree at hand. The result tells whether there was a
target. -/
def applyInPlace (patch : Patch) : InPlace Bool := do
  match (← get).locate? patch.targetId with
  | none => pure false
  | some path => do
      patch.editInPlace path
      pure true

/-- The patches applied to the tree at hand in order, up to the first that stops. -/
def applyEachInPlace : List Patch → InPlace Unit
  | [] => pure ()
  | patch :: rest => do
      let _ ← patch.applyInPlace
      applyEachInPlace rest

/-- The patches applied to a copy of a tree. The copy is handed out only when none
of them stops. -/
def applyOnCopy (patches : List Patch) (tree : Node) : Except Stop Node :=
  match (applyEachInPlace patches).run.run tree with
  | (.ok (), copy) => .ok copy
  | (.error stop, _) => .error stop

end Patch

end Wireframe
