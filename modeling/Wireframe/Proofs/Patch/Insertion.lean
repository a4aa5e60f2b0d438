import Wireframe.Proofs.Node.First
import Wireframe.Proofs.Patch.Edit

/-!
Contract: insertions and the removals that take them back.

Owns:
- the insertion of a spelled node, which always succeeds where it has a target;
- a node as a payload, which spells that node;
- an insertion with the removal of its node, and a removal with the insertion of the
  removed node, both of which leave the tree as it was.

Ids may repeat. A removal finds the node that it is meant for if its id is new, or if
the node is the first that bears it.
-/

namespace Wireframe

namespace Payload

/-- The payload that carries all of a node stands for that node. -/
theorem toNode_ofNode (node : Node) (targetId : String) :
    (ofNode node).toNode targetId = .ok node := by
  cases node with
  | mk attributes children =>
      simp only [toNode, ofNode, merge, Node.attributes_mk, Node.children_mk, Option.getD_some,
        Option.or_none]

end Payload

namespace Node

/-! ### Children that come and go -/

section Children

variable {attributes : Attributes} {left right : List Node} {child : Node} {id : String}

theorem insertChild_split :
    insertChild left.length child (mk attributes (left ++ right)) =
      mk attributes (left ++ child :: right) := by
  rw [insertChild, List.length_append, Nat.min_eq_left (Nat.le_add_right _ _)]
  congr 1
  induction left with
  | nil => rfl
  | cons first left inductionHypothesis =>
      rw [List.cons_append, List.length_cons, List.insertIdx_succ_cons, inductionHypothesis,
        List.cons_append]

theorem removeChild_split :
    removeChild left.length (mk attributes (left ++ child :: right)) =
      mk attributes (left ++ right) := by
  rw [removeChild, List.eraseIdx_append_of_length_le (Nat.le_refl _), Nat.sub_self,
    List.eraseIdx_cons_zero]

/-- A new child leaves the ids before it where they were. -/
theorem bearsAt_of_lt_child {place : List Nat} (precedes : place < [left.length]) :
    (mk attributes (left ++ child :: right)).BearsAt id place ↔
      (mk attributes (left ++ right)).BearsAt id place := by
  cases place with
  | nil => rw [bearsAt_nil, bearsAt_nil]; rfl
  | cons index rest =>
      have earlier : index < left.length := by
        cases List.cons_lt_cons_iff.mp precedes with
        | inl earlier => exact earlier
        | inr same => exact absurd same.2 (List.not_lt_nil rest)
      rw [bearsAt_cons, bearsAt_cons, List.getElem?_append_left earlier,
        List.getElem?_append_left earlier]

end Children

end Node

namespace Patch

variable {tree above child : Node} {path parent : List Nat} {targetId : String}

/-- An insertion of a spelled node succeeds and makes it a child of its target. -/
theorem exists_gainsAt {payload : Payload} (spelled : payload.toNode targetId = .ok child)
    (position : Option UInt64) (first : tree.FirstAt targetId path) :
    ∃ edited, (Patch.mk targetId .insert (some payload) position).apply tree = .ok edited ∧
      Node.GainsAt (position.getD 0).toNat child path tree edited := by
  obtain ⟨target, present, -⟩ := first.bears
  refine ⟨_, ?_, Node.gainsAt_insertChild _ child present⟩
  have found : tree.FirstAt (Patch.mk targetId .insert (some payload) position).targetId path :=
    first
  rw [apply_of_firstAt found, editAt_of_insert rfl rfl spelled]

/-- The same of a patch that is made for a node. -/
theorem exists_gainsAt_insert (child : Node) (position : Option UInt64)
    (first : tree.FirstAt targetId path) :
    ∃ edited, (insert targetId child position).apply tree = .ok edited ∧
      Node.GainsAt (position.getD 0).toNat child path tree edited :=
  exists_gainsAt (Payload.toNode_ofNode child targetId) position first

/-! ### Taking back -/

/-- The removal of a new node finds it, whatever is below it. -/
theorem remove_insert (position : Option UInt64)
    (present : ∃ node ∈ tree.flatten, node.id = targetId)
    (fresh : ∀ node ∈ tree.flatten, node.id ≠ child.id) :
    applyAll [insert targetId child position, remove child.id] tree = .ok tree := by
  obtain ⟨path, first⟩ := Node.exists_firstAt present
  obtain ⟨edited, inserted, gains⟩ := exists_gainsAt_insert child position first
  cases gains with
  | @intro attributes left right place replaced =>
      have isChild : (Node.mk attributes (left ++ child :: right)).BearsAt child.id
          [left.length] := by
        rw [Node.bearsAt_cons]
        exact ⟨child, by simp, Node.bearsAt_nil.mpr rfl⟩
      -- What precedes the new child bears what it bore before, and that is not its id.
      have firstChild : edited.FirstAt (remove child.id).targetId (path ++ [left.length]) :=
        replaced.firstAt (fun _ => Node.bearsAt_of_lt_child) isChild
          fun other _ => Node.not_bearsAt_of_fresh fresh other
      rw [applyAll_cons_of_ok inserted, applyAll_singleton, apply_of_firstAt firstChild,
        editAt_of_remove rfl, replaced.modifyAt_eq Node.removeChild_split]

/-- A node comes back to its place, since its parent is still the first of its id when the
node is gone. -/
theorem insert_remove (index : UInt64) (presentAbove : tree.at? parent = some above)
    (isChild : above.children[index.toNat]? = some child)
    (firstAbove : tree.FirstAt above.id parent)
    (firstChild : tree.FirstAt child.id (parent ++ [index.toNat])) :
    applyAll [remove child.id, insert above.id child (some index)] tree = .ok tree := by
  cases above with
  | mk attributes children =>
      obtain ⟨left, right, rfl, isIndex⟩ := Node.exists_of_getElem?_eq_some isChild
      have replaced := Node.replacedAt_modifyAt (Node.removeChild left.length) presentAbove
      rw [Node.removeChild_split] at replaced
      have removed : (remove child.id).apply tree =
          .ok (tree.modifyAt (Node.removeChild left.length) parent) := by
        have found : tree.FirstAt (remove child.id).targetId (parent ++ [index.toNat]) :=
          firstChild
        rw [apply_of_firstAt found, editAt_of_remove rfl, isIndex]
      have stillFirst := replaced.firstAt_self rfl firstAbove
      have restores : Node.insertChild index.toNat child (.mk attributes (left ++ right)) =
          .mk attributes (left ++ child :: right) := by
        rw [isIndex, Node.insertChild_split]
      have inserted : (insert attributes.id child (some index)).apply
          (tree.modifyAt (Node.removeChild left.length) parent) = .ok tree := by
        have spelled := Payload.toNode_ofNode child attributes.id
        rw [apply_of_firstAt stillFirst, editAt_of_insert rfl rfl spelled]
        exact congrArg Except.ok (replaced.modifyAt_eq restores)
      rw [applyAll_cons_of_ok removed, applyAll_singleton]
      exact inserted

/-- Insertions and removals take each other back. A node with a new id goes again from
wherever it was put, with all that is below it. A node that is the first of its id comes
back to where it was, with all that was below it, if its parent is the first of its id. -/
theorem insertion_removal_inverse (tree : Node) :
    (∀ (targetId : String) (child : Node) (position : Option UInt64),
      (∃ node ∈ tree.flatten, node.id = targetId) →
      (∀ node ∈ tree.flatten, node.id ≠ child.id) →
      applyAll [insert targetId child position, remove child.id] tree = .ok tree) ∧
    ∀ (above child : Node) (parent : List Nat) (index : UInt64),
      tree.at? parent = some above → above.children[index.toNat]? = some child →
      tree.FirstAt above.id parent → tree.FirstAt child.id (parent ++ [index.toNat]) →
      applyAll [remove child.id, insert above.id child (some index)] tree = .ok tree := by
  constructor
  · intro targetId child position present fresh
    exact remove_insert position present fresh
  · intro above child parent index presentAbove isChild firstAbove firstChild
    exact insert_remove index presentAbove isChild firstAbove firstChild

/-- A new node among the twins, with a child that bears their id. -/
def triplet : Node :=
  .mk { id := "new", kind := .card } [.mk { id := "twin", kind := .text } []]

/-- The new node comes between the twins and goes with its child; the first twin goes and
comes back before the second. -/
theorem insertion_removal_inverse_twins :
    (insert "page" triplet (some 1)).apply twins =
        .ok (.mk { id := "page", kind := .page }
          [.mk { id := "twin", kind := .card } [], triplet,
            .mk { id := "twin", kind := .card } []]) ∧
      applyAll [insert "page" triplet (some 1), remove "new"] twins = .ok twins ∧
      (remove "twin").apply twins =
        .ok (.mk { id := "page", kind := .page } [.mk { id := "twin", kind := .card } []]) ∧
      applyAll [remove "twin", insert "page" (.mk { id := "twin", kind := .card } []) (some 0)]
          twins = .ok twins := by
  obtain ⟨removesNew, restoresOld⟩ := insertion_removal_inverse twins
  refine ⟨rfl, removesNew "page" triplet (some 1) ⟨twins, ?_, rfl⟩ ?_, rfl,
    restoresOld twins (.mk { id := "twin", kind := .card } []) [] 0 rfl rfl ?_ ?_⟩
  · simp [twins, Node.flatten]
  · simp [twins, triplet, Node.flatten, Node.flattenAll, Node.id]
  · exact Node.locate?_eq_some_iff.mp rfl
  · exact Node.locate?_eq_some_iff.mp rfl

end Patch

end Wireframe
