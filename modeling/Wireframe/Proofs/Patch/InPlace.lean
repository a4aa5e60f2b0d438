import Wireframe.Patch.InPlace
import Wireframe.Proofs.Node.Preorder
import Wireframe.Proofs.Patch.Edit

/-!
Contract: an edit in place fails before its first change or not at all.

Owns:
- what the steps below a path leave of the whole tree;
- the steps of an edit against `Patch.applyHit`, which has no steps;
- `Patch.Fails`, the failures of an edit with what calls for each.

Does not own: what the edited tree is like.
-/

namespace Wireframe

namespace InPlace

variable {α β : Type} {steps : InPlace α} {next : α → InPlace β} {tree node after : Node}
  {path : List Nat}

/-! ### Steps in a row -/

theorem bind_of_ok {result : α} (runs : steps tree = (.ok result, after)) :
    (steps >>= next) tree = next result after := by
  show ExceptT.bindCont next (steps tree).1 (steps tree).2 = _
  rw [runs]
  rfl

theorem bind_of_error {stop : Stop} (stops : steps tree = (.error stop, after)) :
    (steps >>= next) tree = (.error stop, after) := by
  show ExceptT.bindCont next (steps tree).1 (steps tree).2 = _
  rw [stops]
  rfl

/-! ### Steps at a path -/

/-- Steps on a child that is there run on it alone. -/
theorem onChild_split (steps : InPlace α) (attributes : Attributes) (left right : List Node)
    (child : Node) :
    onChild steps left.length (.mk attributes (left ++ child :: right)) =
      ((steps child).1, .mk attributes (left ++ (steps child).2 :: right)) := by
  simp only [onChild, Node.children_mk, Node.attributes_mk, List.length_append,
    List.length_cons, Nat.lt_add_right_iff_pos, Nat.zero_lt_succ, dite_true,
    List.getElem_append_right (Nat.le_refl _), Nat.sub_self, List.getElem_cons_zero,
    List.set_append_right _ _ (Nat.le_refl _), List.set_cons_zero]
  rfl

/-- Along a path that leads to a node no index is out of range, and the steps run
on that node alone. -/
theorem onNodeAt_of_at? (steps : InPlace α) (present : tree.at? path = some node) :
    onNodeAt path steps tree = ((steps node).1, tree.replaceAt path (steps node).2) := by
  induction path generalizing tree with
  | nil =>
      rw [Node.at?_nil] at present
      cases present
      rw [Node.replaceAt_nil]
      rfl
  | cons index path inductionHypothesis =>
      cases tree with
      | mk attributes children =>
          rcases Node.exists_of_at?_cons present with ⟨left, child, right, rfl, rfl, below⟩
          show onChild (onNodeAt path steps) left.length _ = _
          rw [onChild_split, inductionHypothesis below, Node.replaceAt_cons]

/-- A change of the node at a path is its replacement by the image. -/
theorem modifyAt_eq_replaceAt (change : Node → Node) (present : tree.at? path = some node) :
    tree.modifyAt change path = tree.replaceAt path (change node) := by
  have changed := Node.replacedAt_modifyAt change present
  have replaced := Node.replacedAt_modifyAt (fun _ => change node) present
  exact (changed.unique replaced).2 rfl

/-- Steps that make a change of every node make that change at a path. -/
theorem onNodeAt_of_change {result : α} {change : Node → Node}
    (changes : steps node = (.ok result, change node)) (present : tree.at? path = some node) :
    onNodeAt path steps tree = (.ok result, tree.modifyAt change path) := by
  rw [onNodeAt_of_at? steps present, changes, modifyAt_eq_replaceAt change present]

theorem modify_eq (change : Node → Node) :
    (modify change : InPlace Unit) node = (.ok (), change node) := rfl

theorem insertAt_min (position : Nat) (child : Node) :
    (do
      let parent ← get
      insertAt (min position parent.children.length) child : InPlace Unit) node =
      (.ok (), Node.insertChild position child node) := by
  cases node with
  | mk attributes children =>
      show (if _ then _ else _ : InPlace Unit) (.mk attributes children) = _
      rw [if_pos (Nat.min_le_right _ _)]
      rfl

theorem removeAt_of_lt {index : Nat} (inRange : index < node.children.length) :
    removeAt index node = (.ok (), node.removeChild index) := by
  cases node with
  | mk attributes children =>
      show (if _ then _ else _ : InPlace Unit) (.mk attributes children) = _
      rw [if_pos inRange]
      rfl

/-- What is left by steps that change the tree only if they run to their end. -/
def settle (tree : Node) : Except PatchError (Node × α) → Except Stop α × Node
  | .ok (edited, result) => (.ok result, edited)
  | .error error => (.error (.failed error), tree)

theorem settle_eq_failed_iff {result : Except PatchError (Node × α)} {error : PatchError} :
    (settle tree result).1 = .error (.failed error) ↔ result = .error error := by
  cases result with
  | ok edited => exact ⟨nofun, nofun⟩
  | error reason => simp [settle]

theorem settle_ne_outOfRange (result : Except PatchError (Node × α)) (index length : Nat) :
    (settle tree result).1 ≠ .error (.outOfRange index length) := by
  cases result <;> exact nofun

end InPlace

/-! ### The edit -/

namespace Patch

open InPlace

variable {patch : Patch} {tree node : Node} {path : List Nat}

/-- The last index of a path that leads to a node is that of a child of its parent. -/
theorem exists_parent {index : Nat} {parent : List Nat}
    (present : tree.at? (parent ++ [index]) = some node) :
    ∃ above, tree.at? parent = some above ∧ index < above.children.length := by
  rw [Node.at?_append, Option.bind_eq_some_iff] at present
  rcases present with ⟨⟨attributes, children⟩, presentParent, presentChild⟩
  rw [Node.at?_cons, Option.bind_eq_some_iff] at presentChild
  rcases presentChild with ⟨child, isChild, -⟩
  exact ⟨.mk attributes children, presentParent, (List.getElem?_eq_some_iff.mp isChild).1⟩

theorem editInPlace_eq (patch : Patch) (present : tree.at? path = some node) :
    patch.editInPlace path tree = settle tree ((patch.editAt path tree).map (·, ())) := by
  unfold editInPlace editAt
  cases patch.operation with
  | update | replace =>
      cases patch.payload with
      | none => rfl
      | some payload => exact onNodeAt_of_change (modify_eq payload.merge) present
  | insert =>
      cases patch.payload with
      | none => rfl
      | some payload =>
          cases spelled : payload.toNode patch.targetId with
          | error error => simp only [spelled]; rfl
          | ok child =>
              simp only [spelled]
              exact onNodeAt_of_change (insertAt_min (patch.position.getD 0).toNat child) present
  | remove =>
      cases last : path.getLast? with
      | none => rfl
      | some index =>
          rcases List.getLast?_eq_some_iff.mp last with ⟨parent, rfl⟩
          rcases exists_parent present with ⟨above, presentAbove, inRange⟩
          simp only [List.dropLast_concat]
          exact onNodeAt_of_change (removeAt_of_lt inRange) presentAbove

/-- An edit in place ends as the edit of a copy does, and where that fails the tree
is untouched. -/
theorem applyInPlace_eq (patch : Patch) (tree : Node) :
    patch.applyInPlace tree = settle tree (patch.applyHit tree) := by
  have looks : (get : InPlace Node) tree = (.ok tree, tree) := rfl
  unfold applyInPlace applyHit
  rw [bind_of_ok looks]
  cases found : tree.locate? patch.targetId with
  | none => rfl
  | some path =>
      rcases (Node.locate?_eq_some_iff.mp found).bears with ⟨node, present, -⟩
      have edits := editInPlace_eq patch present
      -- The target was found, so that the path leads to a node and no index is out of range.
      cases there : patch.editAt path tree with
      | error error =>
          rw [there] at edits
          simp only [there]
          exact bind_of_error edits
      | ok edited =>
          rw [there] at edits
          simp only [there]
          exact bind_of_ok edits

/-! ### The failures -/

/-- Some node bears the id that a patch names. -/
def HasTarget (patch : Patch) (tree : Node) : Prop :=
  ∃ node ∈ tree.flatten, node.id = patch.targetId

theorem hasTarget_iff : patch.HasTarget tree ↔ ∃ path, tree.locate? patch.targetId = some path := by
  constructor
  · rintro ⟨node, isNode, bears⟩
    rw [← Node.map_snd_places, List.mem_map] at isNode
    rcases isNode with ⟨⟨path, _⟩, isPlace, rfl⟩
    cases found : tree.locate? patch.targetId with
    | some first => exact ⟨first, rfl⟩
    | none =>
        exact absurd ⟨_, Node.mem_places.mp isPlace, bears⟩
          (Node.locate?_eq_none_iff.mp found path)
  · rintro ⟨path, found⟩
    rcases (Node.locate?_eq_some_iff.mp found).bears with ⟨node, present, bears⟩
    refine ⟨node, ?_, bears⟩
    rw [← Node.map_snd_places]
    exact List.mem_map_of_mem (Node.mem_places.mpr present)

theorem locate?_eq_nil_iff {id : String} : tree.locate? id = some [] ↔ tree.id = id := by
  rw [Node.locate?_eq_some_iff, ← Node.bearsAt_nil]
  exact ⟨fun first => first.bears, fun bears => ⟨bears, fun other _ => List.not_lt_nil other⟩⟩

/-- The failures of an edit, each with what calls for it. -/
inductive Fails (patch : Patch) (tree : Node) : PatchError → Prop
  | rootRemoval (removes : patch.operation = .remove) (isRoot : tree.id = patch.targetId) :
      Fails patch tree (.rootRemoval patch.targetId)
  | missingPayload (inserts : patch.operation = .insert) (present : patch.HasTarget tree)
      (absent : patch.payload = none) : Fails patch tree (.missingPayload patch.targetId)
  | missingId {payload : Payload} (inserts : patch.operation = .insert)
      (present : patch.HasTarget tree) (carried : patch.payload = some payload)
      (absent : payload.id = none) : Fails patch tree (.incompletePayload patch.targetId "id")
  | missingKind {payload : Payload} (inserts : patch.operation = .insert)
      (present : patch.HasTarget tree) (carried : patch.payload = some payload)
      (identified : payload.id ≠ none) (absent : payload.kind = none) :
      Fails patch tree (.incompletePayload patch.targetId "type")

theorem toNode_eq_error {payload : Payload} {targetId : String} {error : PatchError}
    (failed : payload.toNode targetId = .error error) :
    (payload.id = none ∧ error = .incompletePayload targetId "id") ∨
      payload.id ≠ none ∧ payload.kind = none ∧ error = .incompletePayload targetId "type" := by
  unfold Payload.toNode at failed
  cases hasId : payload.id with
  | none =>
      rw [hasId] at failed
      exact Or.inl ⟨rfl, (Except.error.inj failed).symm⟩
  | some id =>
      cases hasKind : payload.kind with
      | none =>
          rw [hasId, hasKind] at failed
          exact Or.inr ⟨nofun, rfl, (Except.error.inj failed).symm⟩
      | some kind =>
          rw [hasId, hasKind] at failed
          exact absurd failed nofun

/-- An edit at the path of the target fails only for the reasons listed. -/
theorem fails_of_editAt (found : tree.locate? patch.targetId = some path) {error : PatchError}
    (failed : patch.editAt path tree = .error error) : patch.Fails tree error := by
  have present : patch.HasTarget tree := hasTarget_iff.mpr ⟨path, found⟩
  unfold editAt at failed
  cases operation : patch.operation with
  | update | replace =>
      rw [operation] at failed
      cases carried : patch.payload with
      | none | some payload =>
          rw [carried] at failed
          exact absurd failed nofun
  | insert =>
      rw [operation] at failed
      cases carried : patch.payload with
      | none =>
          rw [carried] at failed
          cases failed
          exact .missingPayload operation present carried
      | some payload =>
          rw [carried] at failed
          cases spelled : payload.toNode patch.targetId with
          | ok child =>
              simp only [spelled] at failed
              exact absurd failed nofun
          | error reason =>
              simp only [spelled] at failed
              cases failed
              rcases toNode_eq_error spelled with ⟨noId, rfl⟩ | ⟨hasId, noKind, rfl⟩
              · exact .missingId operation present carried noId
              · exact .missingKind operation present carried hasId noKind
  | remove =>
      rw [operation] at failed
      cases last : path.getLast? with
      | some index =>
          rw [last] at failed
          exact absurd failed nofun
      | none =>
          rw [last] at failed
          cases failed
          rw [List.getLast?_eq_none_iff.mp last] at found
          exact .rootRemoval operation (locate?_eq_nil_iff.mp found)

theorem applyHit_of_located (found : tree.locate? patch.targetId = some path) :
    patch.applyHit tree = (patch.editAt path tree).map (·, true) := by
  unfold applyHit
  rw [found]
  rfl

/-- Each reason for a failure makes the edit fail. -/
theorem Fails.applyHit {error : PatchError} (fails : patch.Fails tree error) :
    patch.applyHit tree = .error error := by
  cases fails with
  | rootRemoval removes isRoot =>
      rw [applyHit_of_located (locate?_eq_nil_iff.mpr isRoot)]
      simp [editAt, removes, Except.map]
  | missingPayload inserts present absent =>
      rcases hasTarget_iff.mp present with ⟨path, found⟩
      rw [applyHit_of_located found]
      simp [editAt, inserts, absent, Except.map]
  | missingId inserts present carried absent =>
      rcases hasTarget_iff.mp present with ⟨path, found⟩
      rw [applyHit_of_located found]
      simp [editAt, inserts, carried, Payload.toNode, absent, Except.map, bind, Except.bind]
  | @missingKind payload inserts present carried identified absent =>
      rcases hasTarget_iff.mp present with ⟨path, found⟩
      rcases Option.ne_none_iff_exists'.mp identified with ⟨id, hasId⟩
      rw [applyHit_of_located found]
      simp [editAt, inserts, carried, Payload.toNode, hasId, absent, Except.map, bind, Except.bind]

theorem applyHit_eq_error_iff {error : PatchError} :
    patch.applyHit tree = .error error ↔ patch.Fails tree error := by
  refine ⟨fun failed => ?_, Fails.applyHit⟩
  cases found : tree.locate? patch.targetId with
  | none =>
      unfold applyHit at failed
      rw [found] at failed
      exact absurd failed nofun
  | some path =>
      rw [applyHit_of_located found] at failed
      cases edited : patch.editAt path tree with
      | ok result =>
          rw [edited] at failed
          exact absurd failed nofun
      | error reason =>
          rw [edited] at failed
          cases failed
          exact fails_of_editAt found edited

theorem fails_rootRemoval_iff {id : String} : patch.Fails tree (.rootRemoval id) ↔
    id = patch.targetId ∧ patch.operation = .remove ∧ tree.id = patch.targetId := by
  constructor
  · intro fails
    cases fails with
    | rootRemoval removes isRoot => exact ⟨rfl, removes, isRoot⟩
  · rintro ⟨rfl, removes, isRoot⟩
    exact .rootRemoval removes isRoot

theorem fails_missingPayload_iff {id : String} : patch.Fails tree (.missingPayload id) ↔
    id = patch.targetId ∧ patch.operation = .insert ∧ patch.payload = none ∧
      patch.HasTarget tree := by
  constructor
  · intro fails
    cases fails with
    | missingPayload inserts present absent => exact ⟨rfl, inserts, absent, present⟩
  · rintro ⟨rfl, inserts, absent, present⟩
    exact .missingPayload inserts present absent

theorem fails_incompletePayload_iff {id field : String} :
    patch.Fails tree (.incompletePayload id field) ↔
      id = patch.targetId ∧ patch.operation = .insert ∧ patch.HasTarget tree ∧
        ∃ payload, patch.payload = some payload ∧
          (field = "id" ∧ payload.id = none ∨
            field = "type" ∧ payload.id ≠ none ∧ payload.kind = none) := by
  constructor
  · intro fails
    cases fails with
    | missingId inserts present carried absent =>
        exact ⟨rfl, inserts, present, _, carried, Or.inl ⟨rfl, absent⟩⟩
    | missingKind inserts present carried identified absent =>
        exact ⟨rfl, inserts, present, _, carried, Or.inr ⟨rfl, identified, absent⟩⟩
  · rintro ⟨rfl, inserts, present, payload, carried, ⟨rfl, absent⟩ | ⟨rfl, identified, absent⟩⟩
    · exact .missingId inserts present carried absent
    · exact .missingKind inserts present carried identified absent

/-! ### All or nothing -/

theorem hit_iff {edited : Node} {hit : Bool} (applied : patch.applyHit tree = .ok (edited, hit)) :
    (hit = true ↔ patch.HasTarget tree) ∧ (hit = false → edited = tree) := by
  rw [hasTarget_iff]
  rcases applyHit_cases applied with ⟨missing, rfl, rfl⟩ | ⟨path, found, rfl, -⟩
  · simp [missing]
  · simp [found]

/-- An edit in place fails for just the reasons that it names, and then, as where it
has no target, the tree is what it was. All the child indexes that it uses are in
range, and what it makes of the tree is what the edit of a copy makes of it. -/
theorem in_place_all_or_nothing (patch : Patch) (tree : Node) :
    ∃ outcome after, patch.applyInPlace.run.run tree = (outcome, after) ∧
      (∀ id, outcome = .error (.failed (.rootRemoval id)) ↔
        id = patch.targetId ∧ patch.operation = .remove ∧ tree.id = patch.targetId) ∧
      (∀ id, outcome = .error (.failed (.missingPayload id)) ↔
        id = patch.targetId ∧ patch.operation = .insert ∧ patch.payload = none ∧
          patch.HasTarget tree) ∧
      (∀ id field, outcome = .error (.failed (.incompletePayload id field)) ↔
        id = patch.targetId ∧ patch.operation = .insert ∧ patch.HasTarget tree ∧
          ∃ payload, patch.payload = some payload ∧
            (field = "id" ∧ payload.id = none ∨
              field = "type" ∧ payload.id ≠ none ∧ payload.kind = none)) ∧
      ((∃ hit, outcome = .ok hit ∧ (hit = true ↔ patch.HasTarget tree) ∧
          patch.applyHit tree = .ok (after, hit)) ∨
        ∃ error, outcome = .error (.failed error) ∧ patch.applyHit tree = .error error) ∧
      (outcome ≠ .ok true → after = tree) ∧
      ∀ index length, outcome ≠ .error (.outOfRange index length) := by
  refine ⟨(settle tree (patch.applyHit tree)).1, (settle tree (patch.applyHit tree)).2,
    applyInPlace_eq patch tree, ?_, ?_, ?_, ?_, ?_, settle_ne_outOfRange _⟩
  · intro id
    rw [settle_eq_failed_iff, applyHit_eq_error_iff, fails_rootRemoval_iff]
  · intro id
    rw [settle_eq_failed_iff, applyHit_eq_error_iff, fails_missingPayload_iff]
  · intro id field
    rw [settle_eq_failed_iff, applyHit_eq_error_iff, fails_incompletePayload_iff]
  · cases applied : patch.applyHit tree with
    | error error => exact Or.inr ⟨error, rfl, rfl⟩
    | ok result => exact Or.inl ⟨result.2, rfl, (hit_iff applied).1, rfl⟩
  · cases applied : patch.applyHit tree with
    | error error => exact fun _ => rfl
    | ok result =>
        intro notHit
        cases isHit : result.2 with
        | true => exact absurd (congrArg Except.ok isHit) notHit
        | false => exact (hit_iff applied).2 isHit

/-- A payload without a kind is found out before the first of the twins changes. -/
example :
    let patch : Patch :=
      { targetId := "twin", operation := .insert, payload := some { id := some "third" } }
    patch.applyInPlace.run.run twins =
      (.error (.failed (.incompletePayload "twin" "type")), twins) := by
  rfl

end Patch

end Wireframe
