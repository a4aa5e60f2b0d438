import Wireframe.Proofs.Node.Paths
import Wireframe.Proofs.Patch.Steps

/-!
Contract: what a patch does to a tree, said without saying how.

Owns:
- `Payload.Overlays`, member by member, and `Payload.Spells`, the node that a
  payload stands for;
- `Patch.Edits`, the edit of one node, and that a patch that is applied makes it;
- where the other nodes are found after the edit.

Does not own: whether the edited tree is sound.
-/

namespace Wireframe

/-! ### What a payload carries -/

/-- A member after an edit is the one that is carried, or else what it was. -/
def Overwrites {α : Type} (carried : Option α) (before after : α) : Prop :=
  (∀ value, carried = some value → after = value) ∧ (carried = none → after = before)

/-- The same of a member that may be absent: nothing that is carried takes it away. -/
def OverwritesOptional {α : Type} (carried before after : Option α) : Prop :=
  (∀ value, carried = some value → after = some value) ∧ (carried = none → after = before)

theorem overwrites_getD {α : Type} (carried : Option α) (before : α) :
    Overwrites carried before (carried.getD before) := by
  cases carried with
  | none => exact ⟨nofun, fun _ => rfl⟩
  | some value => exact ⟨fun _ => Option.some.inj, nofun⟩

theorem overwritesOptional_or {α : Type} (carried before : Option α) :
    OverwritesOptional carried before (carried.or before) := by
  cases carried with
  | none => exact ⟨nofun, fun _ => rfl⟩
  | some value => exact ⟨fun _ => id, nofun⟩

theorem Overwrites.unique {α : Type} {carried : Option α} {before after other : α}
    (first : Overwrites carried before after) (second : Overwrites carried before other) :
    after = other := by
  cases carried with
  | none => rw [first.2 rfl, second.2 rfl]
  | some value => rw [first.1 value rfl, second.1 value rfl]

theorem OverwritesOptional.unique {α : Type} {carried before after other : Option α}
    (first : OverwritesOptional carried before after)
    (second : OverwritesOptional carried before other) : after = other := by
  cases carried with
  | none => rw [first.2 rfl, second.2 rfl]
  | some value => rw [first.1 value rfl, second.1 value rfl]

namespace Payload

/-- Each member of a node is overwritten where the payload carries it and kept
otherwise. -/
structure Overlays (payload : Payload) (before after : Node) : Prop where
  id : Overwrites payload.id before.attributes.id after.attributes.id
  kind : Overwrites payload.kind before.attributes.kind after.attributes.kind
  name : OverwritesOptional payload.name before.attributes.name after.attributes.name
  role : OverwritesOptional payload.role before.attributes.role after.attributes.role
  text : OverwritesOptional payload.text before.attributes.text after.attributes.text
  placeholder : OverwritesOptional payload.placeholder before.attributes.placeholder
    after.attributes.placeholder
  media : OverwritesOptional payload.media before.attributes.media after.attributes.media
  bindings : Overwrites payload.bindings before.attributes.bindings after.attributes.bindings
  constraints : OverwritesOptional payload.constraints before.attributes.constraints
    after.attributes.constraints
  layout : Overwrites payload.layout before.attributes.layout after.attributes.layout
  style : Overwrites payload.style before.attributes.style after.attributes.style
  state : OverwritesOptional payload.state before.attributes.state after.attributes.state
  events : Overwrites payload.events before.attributes.events after.attributes.events
  children : Overwrites payload.children before.children after.children

/-- The node that a payload stands for: its id and kind are carried, and what is
not carried is left at its default. -/
def Spells (payload : Payload) (node : Node) : Prop :=
  ∃ id kind, payload.id = some id ∧ payload.kind = some kind ∧
    payload.Overlays (.mk { id, kind } []) node

theorem merge_overlays (payload : Payload) (node : Node) :
    payload.Overlays node (payload.merge node) := by
  obtain ⟨attributes, children⟩ := node
  constructor
  case id | kind | bindings | layout | style | events | children => exact overwrites_getD _ _
  all_goals exact overwritesOptional_or _ _

theorem Overlays.unique {payload : Payload} {before after other : Node}
    (first : payload.Overlays before after) (second : payload.Overlays before other) :
    after = other := by
  obtain ⟨⟨_, _, _, _, _, _, _, _, _, _, _, _, _⟩, _⟩ := after
  obtain ⟨⟨_, _, _, _, _, _, _, _, _, _, _, _, _⟩, _⟩ := other
  rw [Node.mk.injEq, Attributes.mk.injEq]
  exact ⟨⟨first.id.unique second.id, first.kind.unique second.kind,
    first.name.unique second.name, first.role.unique second.role,
    first.text.unique second.text, first.placeholder.unique second.placeholder,
    first.media.unique second.media, first.bindings.unique second.bindings,
    first.constraints.unique second.constraints, first.layout.unique second.layout,
    first.style.unique second.style, first.state.unique second.state,
    first.events.unique second.events⟩, first.children.unique second.children⟩

theorem Spells.unique {payload : Payload} {node other : Node} (first : payload.Spells node)
    (second : payload.Spells other) : node = other := by
  obtain ⟨id, kind, hasId, hasKind, overlays⟩ := first
  obtain ⟨id', kind', hasId', hasKind', overlays'⟩ := second
  obtain rfl := Option.some.inj (hasId.symm.trans hasId')
  obtain rfl := Option.some.inj (hasKind.symm.trans hasKind')
  exact overlays.unique overlays'

theorem spells_of_toNode {payload : Payload} {targetId : String} {node : Node}
    (spelled : payload.toNode targetId = .ok node) : payload.Spells node := by
  unfold toNode at spelled
  split at spelled
  · exact absurd spelled nofun
  · exact absurd spelled nofun
  · rename_i id kind hasId hasKind
    rw [← Except.ok.inj spelled]
    exact ⟨id, kind, hasId, hasKind, merge_overlays payload _⟩

end Payload

/-! ### A new child -/

namespace Node

/-- The node at a path gains a child at a position, or at the end if that comes first. -/
inductive GainsAt (position : Nat) (child : Node) (path : List Nat) (tree edited : Node) : Prop
  | intro {attributes : Attributes} {left right : List Node}
      (place : left.length = min position (left ++ right).length)
      (replaced : ReplacedAt (.mk attributes (left ++ right))
        (.mk attributes (left ++ child :: right)) path tree edited) :
      GainsAt position child path tree edited

theorem gainsAt_insertChild (position : Nat) (child : Node) {before tree : Node}
    {path : List Nat} (present : tree.at? path = some before) :
    GainsAt position child path tree (tree.modifyAt (insertChild position child) path) := by
  have replaced := replacedAt_modifyAt (insertChild position child) present
  obtain ⟨attributes, children⟩ := before
  obtain ⟨left, right, rfl, place, inserted⟩ := List.exists_of_modifyTailIdx (List.cons child)
    (Nat.min_le_right position children.length)
  rw [insertChild, List.insertIdx, inserted] at replaced
  exact ⟨place, replaced⟩

end Node

/-! ### The edit of one node -/

namespace Patch

/-- What a patch makes of a tree, given the path of its target. -/
inductive Edits (patch : Patch) (path : List Nat) (tree : Node) : Node → Prop
  /-- Without a payload there is nothing to overwrite. -/
  | nothing (merges : patch.operation = .update ∨ patch.operation = .replace)
      (absent : patch.payload = none) : Edits patch path tree tree
  | overlay {payload : Payload} {before after edited : Node}
      (merges : patch.operation = .update ∨ patch.operation = .replace)
      (carried : patch.payload = some payload) (overlays : payload.Overlays before after)
      (replaced : Node.ReplacedAt before after path tree edited) : Edits patch path tree edited
  /-- The target gains a child at the position, or at the end if that comes first. -/
  | insert {payload : Payload} {child edited : Node} {attributes : Attributes}
      {left right : List Node} (inserts : patch.operation = .insert)
      (carried : patch.payload = some payload) (spells : payload.Spells child)
      (place : left.length = min (patch.position.getD 0).toNat (left ++ right).length)
      (replaced : Node.ReplacedAt (.mk attributes (left ++ right))
        (.mk attributes (left ++ child :: right)) path tree edited) :
      Edits patch path tree edited
  /-- The parent of the target loses it. -/
  | remove {edited removed : Node} {parent : List Nat} {attributes : Attributes}
      {left right : List Node} (removes : patch.operation = .remove)
      (onPath : path = parent ++ [left.length])
      (replaced : Node.ReplacedAt (.mk attributes (left ++ removed :: right))
        (.mk attributes (left ++ right)) parent tree edited) : Edits patch path tree edited

section Edits

variable {patch : Patch} {path : List Nat} {tree edited : Node}

theorem edits_of_editAt_merge {payload : Payload}
    (merges : patch.operation = .update ∨ patch.operation = .replace)
    (carried : patch.payload = some payload) {before : Node}
    (present : tree.at? path = some before) :
    patch.Edits path tree (tree.modifyAt payload.merge path) :=
  .overlay merges carried (payload.merge_overlays before)
    (Node.replacedAt_modifyAt payload.merge present)

theorem edits_of_editAt_insert {payload : Payload} {child before : Node}
    (inserts : patch.operation = .insert) (carried : patch.payload = some payload)
    (spells : payload.Spells child) (present : tree.at? path = some before) :
    patch.Edits path tree
      (tree.modifyAt (Node.insertChild (patch.position.getD 0).toNat child) path) := by
  obtain ⟨place, replaced⟩ :=
    Node.gainsAt_insertChild (patch.position.getD 0).toNat child present
  exact .insert inserts carried spells place replaced

theorem edits_of_editAt_remove {parent : List Nat} {index : Nat} {before : Node}
    (removes : patch.operation = .remove)
    (present : tree.at? (parent ++ [index]) = some before) :
    patch.Edits (parent ++ [index]) tree (tree.modifyAt (Node.removeChild index) parent) := by
  rw [Node.at?_append, Option.bind_eq_some_iff] at present
  obtain ⟨⟨attributes, children⟩, presentParent, presentChild⟩ := present
  rw [Node.at?_cons, Option.bind_eq_some_iff] at presentChild
  obtain ⟨child, presentChild, -⟩ := presentChild
  have replaced := Node.replacedAt_modifyAt (Node.removeChild index) presentParent
  obtain ⟨inRange, -⟩ := List.getElem?_eq_some_iff.mp presentChild
  obtain ⟨left, rest, rfl, rfl, removed⟩ :=
    List.exists_of_modifyTailIdx List.tail (Nat.le_of_lt inRange)
  obtain ⟨removedChild, right, rfl⟩ : ∃ first others, rest = first :: others := by
    apply List.exists_cons_of_ne_nil
    rintro rfl
    simp at inRange
  rw [Node.removeChild, List.eraseIdx_eq_modifyTailIdx, removed] at replaced
  exact .remove removes rfl replaced

/-- An edit at a path that leads to a node is the edit of that node. -/
theorem edits_of_editAt {before : Node} (present : tree.at? path = some before)
    (applied : patch.editAt path tree = .ok edited) : patch.Edits path tree edited := by
  cases editedAt_of_editAt applied with
  | nothing merges absent => exact .nothing merges absent
  | merge merges carried => exact edits_of_editAt_merge merges carried present
  | insert inserts carried spelled =>
      exact edits_of_editAt_insert inserts carried (Payload.spells_of_toNode spelled) present
  | remove removes => exact edits_of_editAt_remove removes present

end Edits

/-! ### Where the other nodes are -/

/-- Where a path leads once a child with a given index is gone from a parent: the
children after it move up by one. -/
def closeGap (index : Nat) : List Nat → List Nat → List Nat
  | _, [] => []
  | [], place :: rest => (if index < place then place - 1 else place) :: rest
  | first :: parent, place :: rest =>
      place :: if first = place then closeGap index parent rest else rest

/-- Where the subtree at a path is found after an edit. -/
def movedTo (patch : Patch) (path other : List Nat) : List Nat :=
  match patch.operation, path.getLast? with
  | .remove, some index => closeGap index path.dropLast other
  | _, _ => other

theorem closeGap_append (index : Nat) (parent : List Nat) (place : Nat) (rest : List Nat) :
    closeGap index parent (parent ++ place :: rest) =
      parent ++ (if index < place then place - 1 else place) :: rest := by
  induction parent with
  | nil => rfl
  | cons first parent inductionHypothesis =>
      rw [List.cons_append, closeGap, if_pos rfl, inductionHypothesis, List.cons_append]

theorem closeGap_of_outside {index : Nat} {parent other : List Nat}
    (apart : ¬ parent <+: other) : closeGap index parent other = other := by
  induction parent generalizing other with
  | nil => exact absurd List.nil_prefix apart
  | cons first parent inductionHypothesis =>
      cases other with
      | nil => rfl
      | cons place rest =>
          rw [closeGap]
          by_cases same : first = place
          · subst same
            rw [if_pos rfl, inductionHypothesis]
            exact fun below => apart (List.cons_prefix_cons.mpr ⟨rfl, below⟩)
          · rw [if_neg same]

theorem movedTo_of_ne_remove {patch : Patch} (stays : patch.operation ≠ .remove)
    (path other : List Nat) : patch.movedTo path other = other := by
  unfold movedTo
  split
  · rename_i removes _
    exact absurd removes stays
  · rfl

theorem movedTo_of_remove {patch : Patch} (removes : patch.operation = .remove)
    (parent : List Nat) (index : Nat) (other : List Nat) :
    patch.movedTo (parent ++ [index]) other = closeGap index parent other := by
  unfold movedTo
  rw [removes, List.getLast?_concat, List.dropLast_concat]

/-- The siblings of a removed child keep their order. -/
theorem at?_without {attributes : Attributes} {left right : List Node} {removed : Node}
    {place : Nat} (rest : List Nat) (different : place ≠ left.length) :
    (Node.mk attributes (left ++ right)).at?
        ((if left.length < place then place - 1 else place) :: rest) =
      (Node.mk attributes (left ++ removed :: right)).at? (place :: rest) := by
  rw [Node.at?_cons, Node.at?_cons]
  rcases Nat.lt_or_gt_of_ne different with earlier | later
  · rw [if_neg (Nat.not_lt.mpr (Nat.le_of_lt earlier)), List.getElem?_append_left earlier,
      List.getElem?_append_left earlier]
  · obtain ⟨offset, rfl⟩ := Nat.exists_eq_add_of_lt later
    rw [if_pos later, Nat.add_sub_cancel, List.getElem?_append_right (Nat.le_add_right _ _),
      List.getElem?_append_right (Nat.le_of_lt later)]
    have shift : left.length + offset + 1 - left.length = offset + 1 := by omega
    rw [Nat.add_sub_cancel_left, shift, List.getElem?_cons_succ]

/-- Every subtree that is neither above nor below the target is still there, where
the siblings of a removed target moved up. -/
theorem Edits.at?_movedTo {patch : Patch} {path : List Nat} {tree edited : Node}
    (edits : patch.Edits path tree edited) {other : List Nat}
    (notAbove : ¬ other <+: path) (notBelow : ¬ path <+: other) :
    edited.at? (patch.movedTo path other) = tree.at? other := by
  have merge_ne_remove : patch.operation = .update ∨ patch.operation = .replace →
      patch.operation ≠ .remove := by
    rintro (isUpdate | isReplace) isRemove
    · exact absurd (isUpdate.symm.trans isRemove) nofun
    · exact absurd (isReplace.symm.trans isRemove) nofun
  cases edits with
  | nothing merges absent => rw [movedTo_of_ne_remove (merge_ne_remove merges)]
  | overlay merges carried overlays replaced =>
      rw [movedTo_of_ne_remove (merge_ne_remove merges)]
      exact replaced.at?_of_apart notAbove notBelow
  | insert inserts carried spells place replaced =>
      rw [movedTo_of_ne_remove (by simp [inserts])]
      exact replaced.at?_of_apart notAbove notBelow
  | @remove _ removed parent attributes left right removes onPath replaced =>
      subst onPath
      rw [movedTo_of_remove removes]
      by_cases inside : parent <+: other
      · obtain ⟨rest, rfl⟩ := inside
        cases rest with
        | nil =>
            rw [List.append_nil] at notAbove
            exact absurd (List.prefix_append _ _) notAbove
        | cons place rest =>
            have different : place ≠ left.length := by
              rintro rfl
              apply notBelow
              rw [List.prefix_append_right_inj, List.cons_prefix_cons]
              exact ⟨rfl, List.nil_prefix⟩
            rw [closeGap_append, (replaced.at?_append _).1, (replaced.at?_append _).2]
            exact at?_without rest different
      · rw [closeGap_of_outside inside]
        apply replaced.at?_of_apart _ inside
        exact fun above => notAbove (above.trans (List.prefix_append _ _))

/-! ### One edit only -/

theorem Edits.unique {patch : Patch} {path : List Nat} {tree edited other : Node}
    (first : patch.Edits path tree edited) (second : patch.Edits path tree other) :
    edited = other := by
  cases first with
  | nothing merges absent =>
      cases second with
      | nothing => rfl
      | overlay _ carried => exact absurd (absent.symm.trans carried) nofun
      | insert inserts => simp [inserts] at merges
      | remove removes => simp [removes] at merges
  | overlay merges carried overlays replaced =>
      cases second with
      | nothing _ absent => exact absurd (absent.symm.trans carried) nofun
      | overlay _ carriedToo overlaysToo replacedToo =>
          obtain rfl := Option.some.inj (carried.symm.trans carriedToo)
          obtain ⟨rfl, same⟩ := replaced.unique replacedToo
          exact same (overlays.unique overlaysToo)
      | insert inserts => simp [inserts] at merges
      | remove removes => simp [removes] at merges
  | insert inserts carried spells place replaced =>
      cases second with
      | nothing merges => simp [inserts] at merges
      | overlay merges => simp [inserts] at merges
      | insert _ carriedToo spellsToo placeToo replacedToo =>
          obtain rfl := Option.some.inj (carried.symm.trans carriedToo)
          obtain ⟨sameTarget, same⟩ := replaced.unique replacedToo
          obtain ⟨rfl, sameChildren⟩ := Node.mk.inj sameTarget
          rw [sameChildren] at place
          obtain ⟨rfl, rfl⟩ := List.append_inj sameChildren (place.trans placeToo.symm)
          apply same
          rw [spells.unique spellsToo]
      | remove removes => exact absurd (inserts.symm.trans removes) nofun
  | remove removes onPath replaced =>
      cases second with
      | nothing merges => simp [removes] at merges
      | overlay merges => simp [removes] at merges
      | insert inserts => exact absurd (inserts.symm.trans removes) nofun
      | remove _ onPathToo replacedToo =>
          rw [onPath] at onPathToo
          obtain ⟨rfl, sameIndex⟩ := List.append_inj' onPathToo rfl
          obtain ⟨sameParent, same⟩ := replaced.unique replacedToo
          obtain ⟨rfl, sameChildren⟩ := Node.mk.inj sameParent
          obtain ⟨rfl, sameRest⟩ := List.append_inj sameChildren (List.cons.inj sameIndex).1
          apply same
          rw [(List.cons.inj sameRest).2]

/-! ### Application -/

/-- A patch whose target is nowhere leaves the tree as it is. -/
theorem apply_of_missing {patch : Patch} {tree : Node}
    (missing : ∀ path, ¬ tree.BearsAt patch.targetId path) : patch.apply tree = .ok tree := by
  unfold apply applyHit
  rw [Node.locate?_eq_none_iff.mpr missing]
  rfl

theorem apply_of_firstAt {patch : Patch} {tree : Node} {path : List Nat}
    (first : tree.FirstAt patch.targetId path) : patch.apply tree = patch.editAt path tree := by
  unfold apply applyHit
  rw [Node.locate?_eq_some_iff.mpr first]
  cases edited : patch.editAt path tree <;> simp only [edited] <;> rfl

/-- A patch edits the first node in pre-order that bears its id, once, and no other:
where it succeeds, its result is the one tree that the edit describes. -/
theorem apply_edits_first (patch : Patch) (tree : Node) :
    ((∀ path, ¬ tree.BearsAt patch.targetId path) → patch.apply tree = .ok tree) ∧
    ((∃ path, tree.BearsAt patch.targetId path) →
      ∃ path, tree.FirstAt patch.targetId path) ∧
    ∀ path, tree.FirstAt patch.targetId path →
      ∀ edited, patch.apply tree = .ok edited →
        patch.Edits path tree edited ∧
        (∀ other, patch.Edits path tree other → other = edited) ∧
        ∀ other, ¬ other <+: path → ¬ path <+: other →
          edited.at? (patch.movedTo path other) = tree.at? other := by
  refine ⟨apply_of_missing, ?_, ?_⟩
  · rintro ⟨path, bears⟩
    cases located : tree.locate? patch.targetId with
    | none => exact absurd bears (Node.locate?_eq_none_iff.mp located path)
    | some first => exact ⟨first, Node.locate?_eq_some_iff.mp located⟩
  · intro path first edited applied
    rw [apply_of_firstAt first] at applied
    obtain ⟨node, present, -⟩ := first.bears
    have edits := edits_of_editAt present applied
    refine ⟨edits, fun other edits' => edits'.unique edits, ?_⟩
    exact fun other notAbove notBelow => edits.at?_movedTo notAbove notBelow

/-- A tree of three nodes, two of which share an id. -/
def twins : Node :=
  .mk { id := "page", kind := .page }
    [.mk { id := "twin", kind := .card } [], .mk { id := "twin", kind := .card } []]

/-- A third node with that id goes into the first, and into it alone. -/
theorem apply_edits_first_twins :
    (Patch.insert "twin" (.mk { id := "twin", kind := .text } []) (some 4)).Edits [0] twins
      (.mk { id := "page", kind := .page }
        [.mk { id := "twin", kind := .card } [.mk { id := "twin", kind := .text } []],
          .mk { id := "twin", kind := .card } []]) := by
  have first : twins.FirstAt "twin" [0] := Node.locate?_eq_some_iff.mp rfl
  obtain ⟨-, -, edits⟩ := apply_edits_first
    (Patch.insert "twin" (.mk { id := "twin", kind := .text } []) (some 4)) twins
  exact (edits [0] first _ rfl).1

end Patch

end Wireframe
