import Wireframe.Patch.Apply

/-!
Contract: what one application of a patch can do, case by case.

Owns:
- `EditedAt`, the four ways in which an edit at a path succeeds;
- the cases of one application, and of a row of them.

Does not own: what the edited tree is like.
-/

namespace Wireframe.Patch

variable {patch : Patch} {path : List Nat} {tree edited : Node}

/-- The ways in which an edit at a path succeeds. -/
inductive EditedAt (patch : Patch) (tree : Node) : List Nat → Node → Prop
  | nothing {path : List Nat}
      (merges : patch.operation = .update ∨ patch.operation = .replace)
      (absent : patch.payload = none) : EditedAt patch tree path tree
  | merge {path : List Nat} {payload : Payload}
      (merges : patch.operation = .update ∨ patch.operation = .replace)
      (carried : patch.payload = some payload) :
      EditedAt patch tree path (tree.modifyAt payload.merge path)
  | insert {path : List Nat} {payload : Payload} {child : Node}
      (inserts : patch.operation = .insert) (carried : patch.payload = some payload)
      (spelled : payload.toNode patch.targetId = .ok child) :
      EditedAt patch tree path
        (tree.modifyAt (Node.insertChild (patch.position.getD 0).toNat child) path)
  | remove {parent : List Nat} {index : Nat} (removes : patch.operation = .remove) :
      EditedAt patch tree (parent ++ [index]) (tree.modifyAt (Node.removeChild index) parent)

theorem editedAt_of_merge (merges : patch.operation = .update ∨ patch.operation = .replace)
    (applied : (match patch.payload with
      | some payload => Except.ok (tree.modifyAt payload.merge path)
      | none => .ok tree) = (.ok edited : Except PatchError Node)) :
    patch.EditedAt tree path edited := by
  cases carried : patch.payload with
  | none =>
      rw [carried] at applied
      cases applied
      exact .nothing merges carried
  | some payload =>
      rw [carried] at applied
      cases applied
      exact .merge merges carried

theorem editedAt_of_editAt (applied : patch.editAt path tree = .ok edited) :
    patch.EditedAt tree path edited := by
  unfold editAt at applied
  cases operation : patch.operation with
  | update =>
      rw [operation] at applied
      exact editedAt_of_merge (Or.inl operation) applied
  | replace =>
      rw [operation] at applied
      exact editedAt_of_merge (Or.inr operation) applied
  | insert =>
      rw [operation] at applied
      cases carried : patch.payload with
      | none =>
          rw [carried] at applied
          exact absurd applied nofun
      | some payload =>
          rw [carried] at applied
          cases spelled : payload.toNode patch.targetId with
          | error error =>
              simp only [spelled] at applied
              exact absurd applied nofun
          | ok child =>
              simp only [spelled] at applied
              cases applied
              exact .insert operation carried spelled
  | remove =>
      rw [operation] at applied
      cases last : path.getLast? with
      | none =>
          rw [last] at applied
          exact absurd applied nofun
      | some index =>
          rw [last] at applied
          cases applied
          obtain ⟨parent, rfl⟩ := List.getLast?_eq_some_iff.mp last
          rw [List.dropLast_concat]
          exact .remove operation

theorem editAt_of_merge {payload : Payload}
    (merges : patch.operation = .update ∨ patch.operation = .replace)
    (carried : patch.payload = some payload) (path : List Nat) (tree : Node) :
    patch.editAt path tree = .ok (tree.modifyAt payload.merge path) := by
  unfold editAt
  cases merges with
  | inl isUpdate => rw [isUpdate, carried]
  | inr isReplace => rw [isReplace, carried]

theorem editAt_of_absent (merges : patch.operation = .update ∨ patch.operation = .replace)
    (absent : patch.payload = none) (path : List Nat) (tree : Node) :
    patch.editAt path tree = .ok tree := by
  unfold editAt
  cases merges with
  | inl isUpdate => rw [isUpdate, absent]
  | inr isReplace => rw [isReplace, absent]

theorem editAt_of_insert {payload : Payload} {child : Node}
    (inserts : patch.operation = .insert) (carried : patch.payload = some payload)
    (spelled : payload.toNode patch.targetId = .ok child) (path : List Nat) (tree : Node) :
    patch.editAt path tree =
      .ok (tree.modifyAt (Node.insertChild (patch.position.getD 0).toNat child) path) := by
  unfold editAt
  rw [inserts, carried]
  simp only [spelled]
  rfl

theorem editAt_of_remove (removes : patch.operation = .remove) (parent : List Nat)
    (index : Nat) (tree : Node) :
    patch.editAt (parent ++ [index]) tree =
      .ok (tree.modifyAt (Node.removeChild index) parent) := by
  unfold editAt
  rw [removes, List.getLast?_concat, List.dropLast_concat]

/-- A patch leaves the tree alone, its target missing, or edits it at the path
of the target. -/
theorem applyHit_cases {hit : Bool} (applied : patch.applyHit tree = .ok (edited, hit)) :
    (tree.locate? patch.targetId = none ∧ edited = tree ∧ hit = false) ∨
      ∃ path, tree.locate? patch.targetId = some path ∧ hit = true ∧
        patch.editAt path tree = .ok edited := by
  unfold applyHit at applied
  cases found : tree.locate? patch.targetId with
  | none =>
      rw [found] at applied
      cases applied
      exact Or.inl ⟨rfl, rfl, rfl⟩
  | some path =>
      rw [found] at applied
      cases there : patch.editAt path tree with
      | error error =>
          simp only [there] at applied
          exact absurd applied nofun
      | ok result =>
          simp only [there] at applied
          cases applied
          exact Or.inr ⟨path, rfl, rfl, there⟩

/-- Applied alone or in place, a patch leaves the same tree. -/
theorem exists_applyHit_of_apply (applied : patch.apply tree = .ok edited) :
    ∃ hit, patch.applyHit tree = .ok (edited, hit) := by
  unfold apply at applied
  cases outcome : patch.applyHit tree with
  | error error =>
      rw [outcome] at applied
      exact absurd applied nofun
  | ok result =>
      rw [outcome] at applied
      cases applied
      exact ⟨result.2, rfl⟩

theorem applyAll_cons {patches : List Patch}
    (applied : applyAll (patch :: patches) tree = .ok edited) :
    ∃ next, patch.apply tree = .ok next ∧ applyAll patches next = .ok edited := by
  unfold applyAll at applied
  rw [List.foldlM_cons] at applied
  cases first : patch.apply tree with
  | error error =>
      rw [first] at applied
      exact absurd applied nofun
  | ok next =>
      rw [first] at applied
      exact ⟨next, rfl, applied⟩

theorem applyAll_cons_of_ok {patches : List Patch} {next : Node}
    (applied : patch.apply tree = .ok next) :
    applyAll (patch :: patches) tree = applyAll patches next := by
  unfold applyAll
  rw [List.foldlM_cons, applied]
  rfl

theorem applyAll_singleton (patch : Patch) (tree : Node) :
    applyAll [patch] tree = patch.apply tree := by
  unfold applyAll
  rw [List.foldlM_cons]
  exact bind_pure _

end Wireframe.Patch
