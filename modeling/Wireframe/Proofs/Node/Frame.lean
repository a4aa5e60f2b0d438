import Mathlib.Data.List.Nodup
import Wireframe.Proofs.Node.Preorder

/-!
Contract: what stands around a subtree in pre-order.

Owns:
- `ids`, the ids of a tree in pre-order, as those of its places;
- `Framed`, the places before and behind the subtree at a path, none of which lies
  in it;
- the ids of a tree of which one subtree was replaced, or one child removed.
-/

namespace Wireframe.Node

/-! ### Ids in pre-order -/

def ids (tree : Node) : List String :=
  tree.flatten.map id

/-- The ids of some trees, one tree after the other. -/
def idsAll (nodes : List Node) : List String :=
  (flattenAll nodes).map id

def idsAt (places : List (List Nat × Node)) : List String :=
  places.map fun place => place.2.id

theorem ids_mk (attributes : Attributes) (children : List Node) :
    (mk attributes children).ids = attributes.id :: idsAll children := by
  rw [ids, flatten, List.map_cons]
  rfl

theorem idsAll_cons (node : Node) (rest : List Node) :
    idsAll (node :: rest) = node.ids ++ idsAll rest := by
  rw [idsAll, flattenAll, List.map_append]
  rfl

theorem idsAll_append (left right : List Node) :
    idsAll (left ++ right) = idsAll left ++ idsAll right := by
  induction left with
  | nil => rfl
  | cons node left inductionHypothesis =>
      rw [List.cons_append, idsAll_cons, idsAll_cons, inductionHypothesis, List.append_assoc]

theorem idsAt_cons (path : List Nat) (node : Node) (places : List (List Nat × Node)) :
    idsAt ((path, node) :: places) = node.id :: idsAt places :=
  rfl

theorem idsAt_append (left right : List (List Nat × Node)) :
    idsAt (left ++ right) = idsAt left ++ idsAt right :=
  List.map_append

theorem idsAt_places (tree : Node) : idsAt tree.places = tree.ids := by
  rw [ids, ← map_snd_places, List.map_map]
  rfl

theorem idsAt_placesBelow (index : Nat) (nodes : List Node) :
    idsAt (placesBelow index nodes) = idsAll nodes := by
  rw [idsAll, ← map_snd_placesBelow (fun node _ => map_snd_places node) index, List.map_map]
  rfl

/-- Ids name one node each just where none of them is repeated. -/
theorem nodup_ids_iff {tree : Node} : tree.ids.Nodup ↔ ¬ tree.Ambiguous := by
  rw [← idsAt_places, idsAt]
  constructor
  · rintro distinct ⟨id, first, second, different, ⟨node, isFirst, bears⟩, other, isSecond, bearsToo⟩
    have same := List.inj_on_of_nodup_map distinct (mem_places.mpr isFirst)
      (mem_places.mpr isSecond) (bears.trans bearsToo.symm)
    exact different (congrArg Prod.fst same)
  · intro unambiguous
    rw [List.nodup_iff_pairwise_ne, List.pairwise_map]
    apply tree.pairwise_places.imp_of_mem
    intro left right isLeft isRight precedes same
    have different : left.1 ≠ right.1 := by
      intro equal
      rw [equal] at precedes
      exact List.lt_irrefl _ precedes
    exact unambiguous ⟨left.2.id, left.1, right.1, different, ⟨left.2, mem_places.mp isLeft, rfl⟩,
      right.2, mem_places.mp isRight, same.symm⟩

/-! ### Around a path -/

/-- A place in a subtree as a place in the tree, the subtree standing at a path. -/
def under (path : List Nat) (place : List Nat × Node) : List Nat × Node :=
  (path ++ place.1, place.2)

theorem idsAt_map_under (path : List Nat) (places : List (List Nat × Node)) :
    idsAt (places.map (under path)) = idsAt places := by
  rw [idsAt, List.map_map]
  rfl

theorem map_under_map_under (path rest : List Nat) (places : List (List Nat × Node)) :
    (places.map (under rest)).map (under path) = places.map (under (path ++ rest)) := by
  rw [List.map_map]
  congr 1
  funext place
  simp [under]

theorem placesBelow_append (index : Nat) (left right : List Node) :
    placesBelow index (left ++ right) =
      placesBelow index left ++ placesBelow (index + left.length) right := by
  induction left generalizing index with
  | nil => rfl
  | cons node left inductionHypothesis =>
      rw [List.cons_append, placesBelow, placesBelow, inductionHypothesis, List.append_assoc,
        List.length_cons, Nat.add_assoc, Nat.add_comm 1]

/-- The places of a tree around the subtree at a path. -/
structure Framed (tree : Node) (path : List Nat) (node : Node)
    (left right : List (List Nat × Node)) : Prop where
  places : tree.places = left ++ node.places.map (under path) ++ right
  outside : ∀ place ∈ left ++ right, ¬ path <+: place.1

theorem framed_self (tree : Node) : tree.Framed [] tree [] [] where
  places := by
    have same : under [] = fun place => place := rfl
    simp [same]
  outside := List.forall_mem_nil _

theorem framed_child (attributes : Attributes) (left right : List Node) (child : Node) :
    (mk attributes (left ++ child :: right)).Framed [left.length] child
      (([], mk attributes (left ++ child :: right)) :: placesBelow 0 left)
      (placesBelow (left.length + 1) right) where
  places := by
    rw [Node.places, placesBelow_append, placesBelow, Nat.zero_add]
    simp only [List.cons_append, List.append_assoc]
    rfl
  outside := by
    intro place isPlace inside
    simp only [List.cons_append, List.mem_cons, List.mem_append, mem_placesBelow] at isPlace
    rcases isPlace with rfl | ⟨index, node, path, isChild, -, isPath⟩ |
      ⟨index, node, path, isChild, -, isPath⟩
    · simp at inside
    · rw [isPath, List.cons_prefix_cons] at inside
      have inRange := (List.getElem?_eq_some_iff.mp isChild).1
      omega
    · rw [isPath, List.cons_prefix_cons] at inside
      omega

section Framed

variable {tree node subtree : Node} {path rest : List Nat}
  {left right innerLeft innerRight : List (List Nat × Node)}

/-- What stands around a part of a subtree: the rest of the subtree, and what stands
around that. -/
theorem Framed.trans (framed : tree.Framed path node left right)
    (inner : node.Framed rest subtree innerLeft innerRight) :
    tree.Framed (path ++ rest) subtree (left ++ innerLeft.map (under path))
      (innerRight.map (under path) ++ right) where
  places := by
    rw [framed.places, inner.places, List.map_append, List.map_append, map_under_map_under]
    simp only [List.append_assoc]
  outside := by
    intro place isPlace inside
    have above : path <+: place.1 := (List.prefix_append path rest).trans inside
    have inner_outside : ∀ inner ∈ innerLeft ++ innerRight, place ≠ under path inner := by
      rintro other isInner rfl
      exact inner.outside other isInner ((List.prefix_append_right_inj path).mp inside)
    simp only [List.mem_append, List.mem_map] at isPlace
    rcases isPlace with (isLeft | ⟨other, isInner, rfl⟩) | ⟨other, isInner, rfl⟩ | isRight
    · exact framed.outside place (List.mem_append_left _ isLeft) above
    · exact inner_outside other (List.mem_append_left _ isInner) rfl
    · exact inner_outside other (List.mem_append_right _ isInner) rfl
    · exact framed.outside place (List.mem_append_right _ isRight) above

end Framed

/-! ### Around a replacement -/

variable {before after tree edited : Node} {path : List Nat}

/-- A replacement changes the ids of the subtree alone. -/
theorem ReplacedAt.exists_framed (replaced : ReplacedAt before after path tree edited) :
    ∃ left right, tree.Framed path before left right ∧
      edited.ids = idsAt left ++ after.ids ++ idsAt right := by
  induction replaced with
  | here => exact ⟨[], [], framed_self _, (List.append_nil _).symm⟩
  | @child attributes left right child edited path inside inductionHypothesis =>
      rcases inductionHypothesis with ⟨innerLeft, innerRight, framed, innerIds⟩
      refine ⟨_, _, (framed_child attributes left right child).trans framed, ?_⟩
      rw [ids_mk, idsAll_append, idsAll_cons, innerIds]
      simp only [idsAt_append, idsAt_map_under, idsAt_cons, idsAt_placesBelow, List.append_assoc,
        List.cons_append]
      rfl

/-- The removal of a child takes the ids of its subtree away. -/
theorem ReplacedAt.exists_framed_of_removed {attributes : Attributes} {left right : List Node}
    {removed : Node}
    (replaced : ReplacedAt (mk attributes (left ++ removed :: right))
      (mk attributes (left ++ right)) path tree edited) :
    ∃ outerLeft outerRight,
      tree.Framed (path ++ [left.length]) removed outerLeft outerRight ∧
        edited.ids = idsAt outerLeft ++ idsAt outerRight := by
  rcases replaced.exists_framed with ⟨outerLeft, outerRight, framed, edits⟩
  refine ⟨_, _, framed.trans (framed_child attributes left right removed), ?_⟩
  rw [edits, ids_mk, idsAll_append]
  simp only [idsAt_append, idsAt_map_under, idsAt_cons, idsAt_placesBelow, List.append_assoc,
    List.cons_append]
  rfl

end Wireframe.Node
