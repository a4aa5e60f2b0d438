import Wireframe.Proofs.Node.Preorder

/-!
Contract: changes of the first node that bears an id.

Owns:
- `bears`, whether an id occurs in a tree, and the search for a node by it;
- `changeFirst`, such a change by recursion on the tree, which is the change at the
  path that the search for the id ends at;
- two changes in a row, under one id and under two.

Does not own: which changes a patch makes.

A change may rename its node and put other nodes below it, so that the next search may
end elsewhere. Each law says what its changes have to leave alone.
-/

namespace Wireframe.Node

/-- Whether a node of a tree bears an id. -/
def bears (id : String) (tree : Node) : Bool :=
  (tree.locate? id).isSome

mutual

/-- The tree with the first node in pre-order that bears an id replaced by its image. -/
def changeFirst (id : String) (change : Node → Node) : Node → Node
  | mk attributes children =>
      if attributes.id = id then change (mk attributes children)
      else mk attributes (changeFirstIn id change children)

/-- The same for trees in a row, of which the first that has such a node is changed. -/
def changeFirstIn (id : String) (change : Node → Node) : List Node → List Node
  | [] => []
  | node :: rest =>
      if node.bears id then changeFirst id change node :: rest
      else node :: changeFirstIn id change rest

end

section

variable {id other : String} {change first second : Node → Node} {tree node : Node}
  {path : List Nat}

/-! ### The ids of a tree -/

theorem bears_eq_any (id : String) (tree : Node) :
    tree.bears id = tree.flatten.any fun node => node.id == id := by
  rw [bears, ← lookup_places, isSome_lookup_entry, map_snd_places]

theorem bears_iff : tree.bears id = true ↔ ∃ node ∈ tree.flatten, node.id = id := by
  simp [bears_eq_any]

theorem bears_eq_false_iff : tree.bears id = false ↔ ∀ node ∈ tree.flatten, node.id ≠ id := by
  simp [bears_eq_any]

/-- Where a node bears an id, the search for the id ends at the first. -/
theorem exists_firstAt (present : ∃ node ∈ tree.flatten, node.id = id) :
    ∃ path, tree.FirstAt id path := by
  have located := bears_iff.mpr present
  rw [bears, Option.isSome_iff_exists] at located
  obtain ⟨path, located⟩ := located
  exact ⟨path, locate?_eq_some_iff.mp located⟩

theorem not_bearsAt_of_fresh (fresh : ∀ node ∈ tree.flatten, node.id ≠ id) (path : List Nat) :
    ¬ tree.BearsAt id path := by
  apply locate?_eq_none_iff.mp
  rw [← Option.not_isSome_iff_eq_none, Bool.not_eq_true]
  exact bears_eq_false_iff.mpr fresh

theorem isSome_locateIn? (id : String) (index : Nat) (nodes : List Node) :
    (locateIn? id index nodes).isSome = nodes.any (bears id) := by
  induction nodes generalizing index with
  | nil => rfl
  | cons node rest inductionHypothesis =>
      rw [locateIn?, List.any_cons, ← inductionHypothesis (index + 1), bears]
      cases node.locate? id <;> rfl

theorem bears_mk (id : String) (attributes : Attributes) (children : List Node) :
    (mk attributes children).bears id =
      (decide (attributes.id = id) || children.any (bears id)) := by
  rw [bears, locate?]
  by_cases own : attributes.id = id
  · simp [own]
  · simp [own, isSome_locateIn?]

theorem bears_of_own (own : node.id = id) : node.bears id = true := by
  cases node with
  | mk attributes children =>
      have ownId : attributes.id = id := own
      simp [bears_mk, ownId]

/-! ### The search for a node -/

theorem findIn?_split {left right : List Node} {child : Node}
    (missed : ∀ earlier ∈ left, earlier.find? id = none) (found : child.find? id = some node) :
    findIn? id (left ++ child :: right) = some node := by
  induction left with
  | nil => simp only [List.nil_append, findIn?, found]
  | cons earlier left inductionHypothesis =>
      obtain ⟨missedHere, missedLater⟩ := List.forall_mem_cons.mp missed
      simp only [List.cons_append, findIn?, missedHere, inductionHypothesis missedLater]

theorem findIn?_of_missing {nodes : List Node}
    (missed : ∀ node ∈ nodes, node.find? id = none) : findIn? id nodes = none := by
  induction nodes with
  | nil => rfl
  | cons node rest inductionHypothesis =>
      obtain ⟨missedHere, missedLater⟩ := List.forall_mem_cons.mp missed
      simp only [findIn?, missedHere, inductionHypothesis missedLater]

/-- The node that is found stands at the path that is found. -/
theorem find?_eq (id : String) (tree : Node) :
    tree.find? id = (tree.locate? id).bind tree.at? := by
  induction tree using Node.induction with
  | mk attributes children inductionHypothesis =>
      rw [find?, locate?]
      by_cases own : attributes.id = id
      · simp [own]
      · rw [if_neg own, if_neg own]
        cases found : locateIn? id 0 children with
        | none =>
            rw [Option.bind_none]
            apply findIn?_of_missing
            intro child isChild
            rw [inductionHypothesis child isChild, locateIn?_eq_none found child isChild]
            rfl
        | some path =>
            obtain ⟨left, child, right, below, rfl, rfl, located, missed⟩ :=
              locateIn?_eq_some found
            have first : (locate? id child).bind child.at? = child.at? below := by
              rw [located, Option.bind_some]
            obtain ⟨node, present, -⟩ := (locate?_eq_some_iff.mp located).bears
            have isFound : findIn? id (left ++ child :: right) = some node := by
              apply findIn?_split
              · intro earlier isEarlier
                rw [inductionHypothesis earlier (by simp [isEarlier]), missed earlier isEarlier]
                rfl
              · rw [inductionHypothesis child (by simp), first, present]
            rw [isFound, Option.bind_some, Nat.zero_add, at?_cons]
            simp [present]

/-! ### The change at a path -/

theorem changeFirst_mk_of_own {attributes : Attributes} {children : List Node}
    (own : attributes.id = id) :
    (mk attributes children).changeFirst id change = change (mk attributes children) := by
  rw [changeFirst, if_pos own]

theorem changeFirst_of_own (own : node.id = id) : node.changeFirst id change = change node := by
  cases node with
  | mk attributes children => exact changeFirst_mk_of_own own

theorem changeFirst_mk_of_ne {attributes : Attributes} {children : List Node}
    (different : attributes.id ≠ id) :
    (mk attributes children).changeFirst id change =
      mk attributes (changeFirstIn id change children) := by
  rw [changeFirst, if_neg different]

theorem changeFirstIn_split {left right : List Node} {child : Node}
    (missed : ∀ earlier ∈ left, earlier.bears id = false) (found : child.bears id = true) :
    changeFirstIn id change (left ++ child :: right) =
      left ++ child.changeFirst id change :: right := by
  induction left with
  | nil => rw [List.nil_append, List.nil_append, changeFirstIn, if_pos found]
  | cons earlier left inductionHypothesis =>
      obtain ⟨missedHere, missedLater⟩ := List.forall_mem_cons.mp missed
      rw [List.cons_append, List.cons_append, changeFirstIn, missedHere,
        inductionHypothesis missedLater]
      rfl

theorem changeFirstIn_of_missing {nodes : List Node}
    (missed : ∀ node ∈ nodes, node.bears id = false) :
    changeFirstIn id change nodes = nodes := by
  induction nodes with
  | nil => rw [changeFirstIn]
  | cons node rest inductionHypothesis =>
      obtain ⟨missedHere, missedLater⟩ := List.forall_mem_cons.mp missed
      rw [changeFirstIn, missedHere, inductionHypothesis missedLater]
      rfl

/-- Where no node bears the id, none is changed. -/
theorem changeFirst_of_missing (missing : tree.locate? id = none) :
    tree.changeFirst id change = tree := by
  cases tree with
  | mk attributes children =>
      rw [locate?] at missing
      by_cases own : attributes.id = id
      · simp [own] at missing
      · rw [if_neg own] at missing
        rw [changeFirst_mk_of_ne own, changeFirstIn_of_missing]
        intro child isChild
        rw [bears, locateIn?_eq_none missing child isChild]
        rfl

theorem changeFirst_of_found (found : tree.locate? id = some path) :
    tree.changeFirst id change = tree.modifyAt change path := by
  induction path generalizing tree with
  | nil =>
      have own : tree.id = id := bearsAt_nil.mp (locate?_eq_some_iff.mp found).bears
      rw [changeFirst_of_own own, modifyAt]
  | cons index below inductionHypothesis =>
      cases tree with
      | mk attributes children =>
          rw [locate?] at found
          by_cases own : attributes.id = id
          · simp [own] at found
          · rw [if_neg own] at found
            obtain ⟨left, child, right, rest, rfl, isPath, located, missed⟩ :=
              locateIn?_eq_some found
            rw [Nat.zero_add] at isPath
            obtain ⟨rfl, rfl⟩ := List.cons.inj isPath
            rw [changeFirst_mk_of_ne own, changeFirstIn_split, modifyAt_split,
              inductionHypothesis located]
            · intro earlier isEarlier
              rw [bears, missed earlier isEarlier]
              rfl
            · rw [bears, located]
              rfl

/-! ### Two changes under one id -/

/-- A change that leaves the node it is made of as it is leaves the tree as it is. -/
theorem changeFirst_of_fixed (fixed : ∀ node, tree.find? id = some node → change node = node) :
    tree.changeFirst id change = tree := by
  cases found : tree.locate? id with
  | none => exact changeFirst_of_missing found
  | some path =>
      obtain ⟨node, present, -⟩ := (locate?_eq_some_iff.mp found).bears
      have isFound : tree.find? id = some node := by
        rw [find?_eq, found, Option.bind_some, present]
      have changed := replacedAt_modifyAt change present
      rw [fixed node isFound] at changed
      rw [changeFirst_of_found found]
      exact (changed.unique (replacedAt_self present)).2 rfl

theorem any_bears_changeFirstIn {nodes : List Node}
    (each : ∀ node ∈ nodes, (node.changeFirst id change).bears other = node.bears other) :
    (changeFirstIn id change nodes).any (bears other) = nodes.any (bears other) := by
  induction nodes with
  | nil => rw [changeFirstIn]
  | cons node rest inductionHypothesis =>
      obtain ⟨here, later⟩ := List.forall_mem_cons.mp each
      rw [changeFirstIn]
      by_cases found : node.bears id = true
      · rw [if_pos found, List.any_cons, List.any_cons, here]
      · rw [if_neg found, List.any_cons, List.any_cons, inductionHypothesis later]

/-- A change that neither brings an id nor takes it away does so wherever it is made. -/
theorem bears_changeFirst
    (keeps : ∀ node, node.id = id → (change node).bears other = node.bears other)
    (tree : Node) : (tree.changeFirst id change).bears other = tree.bears other := by
  induction tree using Node.induction with
  | mk attributes children inductionHypothesis =>
      by_cases own : attributes.id = id
      · rw [changeFirst_mk_of_own own]
        exact keeps _ own
      · rw [changeFirst_mk_of_ne own, bears_mk, bears_mk,
          any_bears_changeFirstIn inductionHypothesis]

theorem changeFirstIn_changeFirstIn {nodes : List Node}
    (keeps : ∀ node, node.id = id → (first node).id = id)
    (each : ∀ node ∈ nodes, (node.changeFirst id first).changeFirst id second =
      node.changeFirst id fun node => second (first node)) :
    changeFirstIn id second (changeFirstIn id first nodes) =
      changeFirstIn id (fun node => second (first node)) nodes := by
  have stays : ∀ node, node.id = id → (first node).bears id = node.bears id := by
    intro node own
    rw [bears_of_own own, bears_of_own (keeps node own)]
  induction nodes with
  | nil => simp only [changeFirstIn]
  | cons node rest inductionHypothesis =>
      obtain ⟨here, later⟩ := List.forall_mem_cons.mp each
      by_cases found : node.bears id = true
      · have foundAgain := (bears_changeFirst stays node).trans found
        simp only [changeFirstIn, if_pos found, if_pos foundAgain, here]
      · simp only [changeFirstIn, if_neg found, inductionHypothesis later]

/-- A change that keeps the id of its node, and then a second one, are one change. -/
theorem changeFirst_changeFirst (keeps : ∀ node, node.id = id → (first node).id = id)
    (tree : Node) : (tree.changeFirst id first).changeFirst id second =
      tree.changeFirst id fun node => second (first node) := by
  induction tree using Node.induction with
  | mk attributes children inductionHypothesis =>
      by_cases own : attributes.id = id
      · rw [changeFirst_mk_of_own own, changeFirst_mk_of_own own,
          changeFirst_of_own (keeps (mk attributes children) own)]
      · rw [changeFirst_mk_of_ne own, changeFirst_mk_of_ne own, changeFirst_mk_of_ne own,
          changeFirstIn_changeFirstIn keeps inductionHypothesis]

/-! ### Changes under two ids -/

/-- A change that neither brings nor takes away an id, and that goes with every change of
the first node with that id below. -/
structure Spares (other : String) (change : Node → Node) : Prop where
  bears : ∀ node : Node, (change node).bears other = node.bears other
  passes : ∀ (below : Node → Node) (node : Node), node.id ≠ other →
    (change node).changeFirst other below = change (node.changeFirst other below)

theorem changeFirstIn_comm {nodes : List Node} (firstSpares : Spares other first)
    (secondSpares : Spares id second)
    (each : ∀ node ∈ nodes, (node.changeFirst id first).changeFirst other second =
      (node.changeFirst other second).changeFirst id first) :
    changeFirstIn other second (changeFirstIn id first nodes) =
      changeFirstIn id first (changeFirstIn other second nodes) := by
  induction nodes with
  | nil => simp only [changeFirstIn]
  | cons node rest inductionHypothesis =>
      obtain ⟨here, later⟩ := List.forall_mem_cons.mp each
      have keepsOther : (node.changeFirst id first).bears other = node.bears other :=
        bears_changeFirst (fun node _ => firstSpares.bears node) node
      have keepsId : (node.changeFirst other second).bears id = node.bears id :=
        bears_changeFirst (fun node _ => secondSpares.bears node) node
      by_cases hasId : node.bears id = true
      · by_cases hasOther : node.bears other = true
        · simp only [changeFirstIn, if_pos hasId, if_pos hasOther, keepsOther, keepsId, here]
        · simp only [changeFirstIn, if_pos hasId, if_neg hasOther, keepsOther]
      · by_cases hasOther : node.bears other = true
        · simp only [changeFirstIn, if_neg hasId, if_pos hasOther, keepsId]
        · simp only [changeFirstIn, if_neg hasId, if_neg hasOther, inductionHypothesis later]

/-- Two changes that spare each other's ids are made in either order. -/
theorem changeFirst_comm (different : id ≠ other) (firstSpares : Spares other first)
    (secondSpares : Spares id second) (tree : Node) :
    (tree.changeFirst id first).changeFirst other second =
      (tree.changeFirst other second).changeFirst id first := by
  induction tree using Node.induction with
  | mk attributes children inductionHypothesis =>
      by_cases own : attributes.id = id
      · -- The first target is above the second or apart from it.
        have notOther : attributes.id ≠ other := fun same => different (own.symm.trans same)
        rw [changeFirst_mk_of_own own, firstSpares.passes second (mk attributes children) notOther,
          changeFirst_mk_of_ne notOther, changeFirst_mk_of_own own]
      · by_cases ownOther : attributes.id = other
        · rw [changeFirst_mk_of_own ownOther,
            secondSpares.passes first (mk attributes children) own, changeFirst_mk_of_ne own,
            changeFirst_mk_of_own ownOther]
        · rw [changeFirst_mk_of_ne own, changeFirst_mk_of_ne ownOther,
            changeFirst_mk_of_ne ownOther, changeFirst_mk_of_ne own,
            changeFirstIn_comm firstSpares secondSpares inductionHypothesis]

end

end Wireframe.Node
