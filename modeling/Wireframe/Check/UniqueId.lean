import Wireframe.Check.Rule

/-!
Contract: the ids of a tree in data, and those that are not the first of their
kind.

Owns:
- `idPaths`, the ids with the paths of their nodes, in pre-order;
- `duplicates`, a warning for each id that stood before.

The tree need not have the shape of nodes: whatever has an id is looked at.
-/

namespace Wireframe.Check

open Json

def uniqueIdRule : String := "unique_id"

def ownId (members : List (String × Value)) (path : String) : List (String × String) :=
  match Value.member? "id" members with
  | some (.string id) => [(id, path)]
  | _ => []

mutual

/-- The ids in a value with the paths of their objects, in pre-order. -/
def idPaths : Value → String → List (String × String)
  | .object members, path => ownId members path ++ childIdPaths members path
  | _, _ => []

/-- The ids below the first member called `children`. -/
def childIdPaths : List (String × Value) → String → List (String × String)
  | [], _ => []
  | (key, value) :: rest, path =>
      if key = "children" then listIdPaths value (memberPath path "children")
      else childIdPaths rest path

def listIdPaths : Value → String → List (String × String)
  | .array items, path => itemIdPaths items path 0
  | _, _ => []

/-- The ids in items, the first of which has a given index. -/
def itemIdPaths : List Value → String → Nat → List (String × String)
  | [], _, _ => []
  | item :: rest, path, index =>
      idPaths item (itemPath path index) ++ itemIdPaths rest path (index + 1)

end

def duplicate (id path firstPath : String) : Violation :=
  ⟨uniqueIdRule, .warning, memberPath path "id",
    "duplicate node id, first declared at " ++ firstPath, some id⟩

/-- A warning for each id that was seen before, with the path at which it was
seen first. -/
def duplicates : List (String × String) → List (String × String) → List Violation
  | _, [] => []
  | seen, (id, path) :: rest =>
      match seen.lookup id with
      | some firstPath => duplicate id path firstPath :: duplicates seen rest
      | none => duplicates ((id, path) :: seen) rest

def uniqueIdViolations : Value → List Violation
  | .object members =>
      match Value.member? "layoutTree" members with
      | some tree => duplicates [] (idPaths tree "$.layoutTree")
      | none => []
  | _ => []

end Wireframe.Check
