import Mathlib.Data.List.Nodup
import Wireframe.Proofs.Node.First

/-!
Contract: the searches of a tree, against one pre-order.

Owns:
- the two searches for an id, as one search among the places of a tree;
- `FoundAt`, what they come to: the first node of the flattened tree that bears the id,
  at the first path that leads to one;
- the count of the nodes, and `Walk`, that the flattened tree visits every index path
  once and in order.

Does not own: changes of what is found.
-/

namespace Wireframe.Node

variable {tree node : Node} {id : String} {path : List Nat}

/-! ### The search among the places -/

/-- The path that is located is that of the first place with the id. -/
theorem locate?_eq_find?_places (tree : Node) (id : String) :
    tree.locate? id = (tree.places.find? fun place => place.2.id == id).map Prod.fst := by
  rw [← lookup_places, lookup_entry]

/-- The node that is found is that of the first place with the id. -/
theorem find?_eq_find?_places (tree : Node) (id : String) :
    tree.find? id = (tree.places.find? fun place => place.2.id == id).map Prod.snd := by
  rw [find?_eq, locate?_eq_find?_places]
  cases isFirst : tree.places.find? fun place => place.2.id == id with
  | none => rfl
  | some place => exact mem_places.mp (List.mem_of_find?_eq_some isFirst)

/-- The node that is found is the first of the flattened tree with the id. -/
theorem find?_flatten (tree : Node) (id : String) :
    (tree.flatten.find? fun node => node.id == id) = tree.find? id := by
  rw [← map_snd_places, List.find?_map, find?_eq_find?_places]
  rfl

theorem isSome_find? (tree : Node) (id : String) :
    (tree.find? id).isSome = (tree.locate? id).isSome := by
  rw [find?_eq_find?_places, locate?_eq_find?_places, Option.isSome_map, Option.isSome_map]

/-! ### Index paths in pre-order -/

def paths (tree : Node) : List (List Nat) :=
  tree.places.map Prod.fst

theorem mem_paths : path ∈ tree.paths ↔ (tree.at? path).isSome := by
  rw [paths, List.mem_map, Option.isSome_iff_exists]
  constructor
  · rintro ⟨place, isPlace, rfl⟩
    exact ⟨place.2, mem_places.mp isPlace⟩
  · rintro ⟨node, stands⟩
    exact ⟨(path, node), mem_places.mpr stands, rfl⟩

theorem pairwise_paths (tree : Node) : tree.paths.Pairwise (· < ·) := by
  rw [paths, List.pairwise_map]
  exact tree.pairwise_places

theorem nodup_paths (tree : Node) : tree.paths.Nodup := by
  refine tree.pairwise_paths.imp fun precedes same => ?_
  rw [same] at precedes
  exact List.lt_irrefl _ precedes

/-- Index paths beside the nodes of a tree: each path that leads to a node stands among
them once, in lexicographic order, and at the position of the node that it leads to. -/
structure Walk (tree : Node) (paths : List (List Nat)) (nodes : List Node) : Prop where
  ascending : paths.Pairwise (· < ·)
  once : ∀ path, paths.count path = if (tree.at? path).isSome then 1 else 0
  leads : paths.map tree.at? = nodes.map some

theorem walk_flatten (tree : Node) : tree.Walk tree.paths tree.flatten where
  ascending := tree.pairwise_paths
  once := by
    intro path
    split
    · rename_i leads
      exact List.count_eq_one_of_mem tree.nodup_paths (mem_paths.mpr leads)
    · rename_i leadsNowhere
      exact List.count_eq_zero_of_not_mem fun isPath => leadsNowhere (mem_paths.mp isPath)
  leads := by
    rw [paths, ← map_snd_places, List.map_map, List.map_map]
    exact List.map_congr_left fun place isPlace => mem_places.mp isPlace

/-! ### The number of nodes -/

theorem countAll_eq {nodes : List Node} (each : ∀ node ∈ nodes, node.count = node.flatten.length) :
    countAll nodes = (flattenAll nodes).length := by
  induction nodes with
  | nil => rfl
  | cons node rest inductionHypothesis =>
      obtain ⟨first, others⟩ := List.forall_mem_cons.mp each
      rw [countAll, flattenAll, List.length_append, first, inductionHypothesis others]

theorem count_eq (tree : Node) : tree.count = tree.flatten.length := by
  induction tree using Node.induction with
  | mk attributes children inductionHypothesis =>
      rw [count, flatten, countAll_eq inductionHypothesis, List.length_cons, Nat.add_comm]

/-! ### What a search comes to -/

/-- One node is what all searches for an id come to: it stands at the path, it is the first
of the flattened tree to bear the id, and no path before this one leads to the id. -/
structure FoundAt (tree : Node) (id : String) (path : List Nat) (node : Node) : Prop where
  found : tree.find? id = some node
  leads : tree.at? path = some node
  first : ∃ position, tree.flatten[position]? = some node ∧ node.id = id ∧
    (∀ earlier ∈ tree.flatten.take position, earlier.id ≠ id) ∧
    tree.paths[position]? = some path
  least : ∀ other, other < path → ¬ tree.BearsAt id other

theorem foundAt_of_locate? (located : tree.locate? id = some path) :
    ∃ node, tree.FoundAt id path node := by
  have isLeast := (locate?_eq_some_iff.mp located).least
  rw [locate?_eq_find?_places, Option.map_eq_some_iff] at located
  obtain ⟨⟨path, node⟩, isFirst, rfl⟩ := located
  have found : tree.find? id = some node := by
    rw [find?_eq_find?_places, isFirst]
    rfl
  obtain ⟨bears, before, after, splits, missed⟩ := List.find?_eq_some_iff_append.mp isFirst
  refine ⟨node, found, mem_places.mp (List.mem_of_find?_eq_some isFirst), ?_, ?_⟩
  · refine ⟨before.length, ?_, beq_iff_eq.mp bears, ?_, ?_⟩
    · simp [← map_snd_places, splits]
    · intro earlier isEarlier
      rw [← map_snd_places, splits, ← List.map_take, List.take_left] at isEarlier
      obtain ⟨place, isBefore, rfl⟩ := List.mem_map.mp isEarlier
      simpa using missed place isBefore
    · simp [paths, splits]
  · exact fun other precedes bearsToo => isLeast other bearsToo precedes

/-- The searches for an id, the flattened tree and the count agree with one pre-order: an
id is located, found and borne by a node together, all searches come to one node, and the
flattened tree visits each index path once, in order. -/
theorem searches_agree (tree : Node) (id : String) :
    ((tree.locate? id).isSome ↔ (tree.find? id).isSome) ∧
      ((tree.find? id).isSome ↔ ∃ node ∈ tree.flatten, node.id = id) ∧
      (∀ path, tree.locate? id = some path → ∃ node, tree.FoundAt id path node) ∧
      tree.count = tree.flatten.length ∧
      tree.Walk tree.paths tree.flatten := by
  refine ⟨?_, ?_, fun path => foundAt_of_locate?, tree.count_eq, tree.walk_flatten⟩
  · rw [isSome_find?]
  · rw [← find?_flatten, List.find?_isSome]
    simp only [beq_iff_eq]

/-- A tree in which an id stands below a node to the left, and again to the right of it. -/
def echoed : Node :=
  .mk { id := "page", kind := .page }
    [.mk { id := "left", kind := .card } [.mk { id := "echo", kind := .text } []],
      .mk { id := "echo", kind := .card } [.mk { id := "left", kind := .text } []]]

/-- The deeper of two nodes comes first where it stands further to the left. -/
theorem searches_agree_echoed :
    echoed.locate? "echo" = some [0, 0] ∧
      echoed.FoundAt "echo" [0, 0] (.mk { id := "echo", kind := .text } []) ∧
      echoed.locate? "none" = none ∧
      echoed.Walk [[], [0], [0, 0], [1], [1, 0]] echoed.flatten := by
  obtain ⟨-, -, located, -, walk⟩ := searches_agree echoed "echo"
  obtain ⟨node, foundAt⟩ := located [0, 0] rfl
  obtain rfl := Option.some.inj foundAt.found
  exact ⟨rfl, foundAt, rfl, walk⟩

end Wireframe.Node
