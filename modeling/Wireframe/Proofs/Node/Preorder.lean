import Mathlib.Data.List.Basic
import Wireframe.Proofs.Json.Order
import Wireframe.Proofs.Node.Paths

/-!
Contract: the nodes of a tree in pre-order, with their index paths.

Owns:
- `places`, the nodes with their paths, and the search for an id among them;
- `repeats`, the places of the nodes whose id an earlier node bears;
- a tree in which an id names two nodes is one with a repeat.
-/

namespace Wireframe.Node

mutual

/-- The nodes of a tree in pre-order, each with the index path that leads to it. -/
def places : Node → List (List Nat × Node)
  | mk attributes children => ([], mk attributes children) :: placesBelow 0 children

/-- The same for some trees, the first of which has a given index. -/
def placesBelow (index : Nat) : List Node → List (List Nat × Node)
  | [] => []
  | node :: rest =>
      (places node).map (fun place => (index :: place.1, place.2)) ++ placesBelow (index + 1) rest

end

/-! ### Nodes and paths -/

theorem map_snd_placesBelow {nodes : List Node}
    (each : ∀ node ∈ nodes, node.places.map Prod.snd = node.flatten) (index : Nat) :
    (placesBelow index nodes).map Prod.snd = flattenAll nodes := by
  induction nodes generalizing index with
  | nil => rfl
  | cons node rest inductionHypothesis =>
      obtain ⟨first, others⟩ := List.forall_mem_cons.mp each
      rw [placesBelow, List.map_append, List.map_map, flattenAll, ← first,
        inductionHypothesis others]
      rfl

/-- The nodes are those of the flattened tree. -/
theorem map_snd_places (tree : Node) : tree.places.map Prod.snd = tree.flatten := by
  induction tree using Node.induction with
  | mk attributes children inductionHypothesis =>
      rw [places, List.map_cons, map_snd_placesBelow inductionHypothesis, flatten]

theorem mem_placesBelow {nodes : List Node} {start : Nat} {place : List Nat × Node} :
    place ∈ placesBelow start nodes ↔ ∃ index child below, nodes[index]? = some child ∧
      (below, place.2) ∈ child.places ∧ place.1 = (start + index) :: below := by
  induction nodes generalizing start with
  | nil => simp [placesBelow]
  | cons node rest inductionHypothesis =>
      rw [placesBelow, List.mem_append, List.mem_map, inductionHypothesis]
      constructor
      · rintro (⟨inside, isInside, rfl⟩ | ⟨index, child, below, isChild, isBelow, isPath⟩)
        · exact ⟨0, node, inside.1, rfl, isInside, rfl⟩
        · refine ⟨index + 1, child, below, isChild, isBelow, ?_⟩
          rw [isPath, Nat.add_right_comm, Nat.add_assoc]
      · rintro ⟨index, child, below, isChild, isBelow, isPath⟩
        cases index with
        | zero =>
            obtain rfl := Option.some.inj isChild
            exact Or.inl ⟨_, isBelow, Prod.ext isPath.symm rfl⟩
        | succ index =>
            refine Or.inr ⟨index, child, below, isChild, isBelow, ?_⟩
            rw [isPath, Nat.add_right_comm, Nat.add_assoc]

/-- A node stands among the places with just the paths that lead to it. -/
theorem mem_places {tree node : Node} {path : List Nat} :
    (path, node) ∈ tree.places ↔ tree.at? path = some node := by
  induction path generalizing tree with
  | nil =>
      obtain ⟨attributes, children⟩ := tree
      rw [places, at?_nil, List.mem_cons, mem_placesBelow]
      simp [eq_comm]
  | cons index path inductionHypothesis =>
      obtain ⟨attributes, children⟩ := tree
      rw [places, at?_cons, List.mem_cons, mem_placesBelow, Option.bind_eq_some_iff]
      simp [← inductionHypothesis]

theorem pairwise_placesBelow {nodes : List Node}
    (each : ∀ node ∈ nodes, node.places.Pairwise fun left right => left.1 < right.1)
    (index : Nat) :
    (placesBelow index nodes).Pairwise fun left right => left.1 < right.1 := by
  induction nodes generalizing index with
  | nil => exact List.Pairwise.nil
  | cons node rest inductionHypothesis =>
      obtain ⟨first, others⟩ := List.forall_mem_cons.mp each
      rw [placesBelow, List.pairwise_append, List.pairwise_map]
      refine ⟨?_, inductionHypothesis others (index + 1), ?_⟩
      · exact first.imp fun precedes => List.cons_lt_cons_iff.mpr (Or.inr ⟨rfl, precedes⟩)
      · intro left isLeft right isRight
        obtain ⟨inside, -, rfl⟩ := List.mem_map.mp isLeft
        obtain ⟨later, child, below, -, -, isPath⟩ := mem_placesBelow.mp isRight
        rw [isPath]
        exact List.cons_lt_cons_iff.mpr (Or.inl (by omega))

/-- Paths ascend in pre-order. -/
theorem pairwise_places (tree : Node) :
    tree.places.Pairwise fun left right => left.1 < right.1 := by
  induction tree using Node.induction with
  | mk attributes children inductionHypothesis =>
      rw [places, List.pairwise_cons]
      refine ⟨?_, pairwise_placesBelow inductionHypothesis 0⟩
      intro place isMember
      obtain ⟨index, child, below, -, -, isPath⟩ := mem_placesBelow.mp isMember
      rw [isPath]
      exact List.nil_lt_cons _ _

/-! ### Places by their ids -/

/-- A place as an entry under the id that is borne there. -/
def entry (place : List Nat × Node) : String × List Nat :=
  (place.2.id, place.1)

theorem lookup_map_cons (index : Nat) (id : String) (places : List (List Nat × Node)) :
    ((places.map fun place => (index :: place.1, place.2)).map entry).lookup id =
      ((places.map entry).lookup id).map (index :: ·) := by
  induction places with
  | nil => rfl
  | cons place rest inductionHypothesis =>
      simp only [List.map_cons, entry, Json.Value.lookup_cons_eq_ite] at inductionHypothesis ⊢
      split
      · rfl
      · exact inductionHypothesis

theorem lookup_placesBelow {nodes : List Node} {id : String}
    (each : ∀ node ∈ nodes, (node.places.map entry).lookup id = node.locate? id) (index : Nat) :
    ((placesBelow index nodes).map entry).lookup id = locateIn? id index nodes := by
  induction nodes generalizing index with
  | nil => rfl
  | cons node rest inductionHypothesis =>
      obtain ⟨first, others⟩ := List.forall_mem_cons.mp each
      rw [placesBelow, List.map_append, List.lookup_append, lookup_map_cons, first,
        inductionHypothesis others, locateIn?]
      cases node.locate? id <;> rfl

/-- The search for an id ends at the first of its places. -/
theorem lookup_places (tree : Node) (id : String) :
    (tree.places.map entry).lookup id = tree.locate? id := by
  induction tree using Node.induction with
  | mk attributes children inductionHypothesis =>
      rw [places, List.map_cons, entry, Json.Value.lookup_cons_eq_ite,
        lookup_placesBelow inductionHypothesis, locate?]
      change (if id = attributes.id then some [] else locateIn? id 0 children) = _
      by_cases own : attributes.id = id
      · rw [if_pos own, if_pos own.symm]
      · rw [if_neg own, if_neg fun same => own same.symm]

theorem lookup_entry (places : List (List Nat × Node)) (id : String) :
    (places.map entry).lookup id =
      (places.find? fun place => place.2.id == id).map Prod.fst := by
  induction places with
  | nil => rfl
  | cons place rest inductionHypothesis =>
      rw [List.map_cons, entry, Json.Value.lookup_cons_eq_ite, List.find?_cons,
        inductionHypothesis]
      by_cases own : place.2.id = id
      · rw [if_pos own.symm, own, beq_self_eq_true]
        rfl
      · rw [if_neg fun same => own same.symm, beq_false_of_ne own]

theorem isSome_lookup_entry (places : List (List Nat × Node)) (id : String) :
    ((places.map entry).lookup id).isSome = (places.map Prod.snd).any fun node => node.id == id := by
  rw [lookup_entry, Option.isSome_map, List.isSome_find?, List.any_map]
  rfl

/-! ### Repeated ids -/

/-- Whether the node at a position in pre-order bears the id of an earlier one. -/
def isRepeat (tree : Node) (place : (List Nat × Node) × Nat) : Bool :=
  (tree.flatten.take place.2).any fun earlier => earlier.id == place.1.2.id

/-- The places of the nodes whose id an earlier node bears, in pre-order. -/
def repeats (tree : Node) : List (List Nat × Node) :=
  (tree.places.zipIdx.filter tree.isRepeat).map Prod.fst

/-- Some id names two nodes. -/
def Ambiguous (tree : Node) : Prop :=
  ∃ id first second, first ≠ second ∧ tree.BearsAt id first ∧ tree.BearsAt id second

section Ambiguous

variable {tree : Node} {place : List Nat × Node}

/-- A repeat stands behind another place of its id. -/
theorem mem_repeats : place ∈ tree.repeats ↔
    ∃ left right, tree.places = left ++ place :: right ∧
      ∃ earlier ∈ left, earlier.2.id = place.2.id := by
  have repeated : ∀ {left right : List (List Nat × Node)},
      tree.places = left ++ place :: right →
        (tree.isRepeat (place, left.length) = true ↔
          ∃ earlier ∈ left, earlier.2.id = place.2.id) := by
    intro left right splits
    rw [isRepeat, ← map_snd_places, splits, ← List.map_take, List.take_left]
    simp
  unfold repeats
  simp only [List.mem_map, List.mem_filter, List.mem_zipIdx_iff_getElem?]
  constructor
  · rintro ⟨⟨found, position⟩, ⟨isPlace, isRepeated⟩, rfl⟩
    obtain ⟨inRange, rfl⟩ : ∃ inRange : position < tree.places.length,
      tree.places[position] = found := List.getElem?_eq_some_iff.mp isPlace
    have splits : tree.places = tree.places.take position ++
        tree.places[position] :: tree.places.drop (position + 1) := by
      rw [← List.drop_eq_getElem_cons inRange, List.take_append_drop]
    refine ⟨_, _, splits, (repeated splits).mp ?_⟩
    rw [List.length_take_of_le (Nat.le_of_lt inRange)]
    exact isRepeated
  · rintro ⟨left, right, splits, isRepeated⟩
    refine ⟨(place, left.length), ⟨?_, (repeated splits).mpr isRepeated⟩, rfl⟩
    rw [splits, List.getElem?_append_right (Nat.le_refl _), Nat.sub_self]
    rfl

/-- The later one of two nodes with one id is a repeat. -/
theorem repeats_ne_nil_of_lt {id : String} {first second : List Nat}
    (bearsFirst : tree.BearsAt id first) (bearsSecond : tree.BearsAt id second)
    (precedes : first < second) : tree.repeats ≠ [] := by
  obtain ⟨node, isFirst, isId⟩ := bearsFirst
  obtain ⟨other, isSecond, isIdToo⟩ := bearsSecond
  obtain ⟨left, right, splits⟩ := List.append_of_mem (mem_places.mpr isSecond)
  have ascending := tree.pairwise_places
  rw [splits, List.pairwise_append, List.pairwise_cons] at ascending
  have among := mem_places.mpr isFirst
  rw [splits, List.mem_append, List.mem_cons] at among
  have isEarlier : (first, node) ∈ left := by
    rcases among with isEarlier | same | isLater
    · exact isEarlier
    · obtain ⟨rfl, -⟩ := Prod.mk.inj same
      exact absurd precedes (List.lt_irrefl first)
    · exact absurd (List.lt_trans precedes (ascending.2.1.1 _ isLater)) (List.lt_irrefl first)
  exact List.ne_nil_of_mem
    (mem_repeats.mpr ⟨left, right, splits, _, isEarlier, isId.trans isIdToo.symm⟩)

/-- An id names two nodes just where one of them is a repeat. -/
theorem ambiguous_iff : tree.Ambiguous ↔ tree.repeats ≠ [] := by
  constructor
  · rintro ⟨id, first, second, distinct, bearsFirst, bearsSecond⟩
    by_cases precedes : first < second
    · exact repeats_ne_nil_of_lt bearsFirst bearsSecond precedes
    · by_cases follows : second < first
      · exact repeats_ne_nil_of_lt bearsSecond bearsFirst follows
      · exact absurd (List.le_antisymm (List.not_lt.mp follows) (List.not_lt.mp precedes)) distinct
  · intro someRepeat
    obtain ⟨place, isRepeated⟩ := List.exists_mem_of_ne_nil _ someRepeat
    obtain ⟨left, right, splits, earlier, isEarlier, sameId⟩ := mem_repeats.mp isRepeated
    have ascending := tree.pairwise_places
    rw [splits, List.pairwise_append] at ascending
    have precedes := ascending.2.2 earlier isEarlier place List.mem_cons_self
    have isPlace : ∀ found ∈ left ++ place :: right, tree.at? found.1 = some found.2 := by
      intro found isMember
      rw [← splits] at isMember
      exact mem_places.mp isMember
    refine ⟨place.2.id, earlier.1, place.1, ?_, ⟨earlier.2, ?_, sameId⟩, ⟨place.2, ?_, rfl⟩⟩
    · intro same
      exact List.lt_irrefl _ (same ▸ precedes)
    · exact isPlace earlier (List.mem_append_left _ isEarlier)
    · exact isPlace place (List.mem_append_right _ List.mem_cons_self)

end Ambiguous

end Wireframe.Node
