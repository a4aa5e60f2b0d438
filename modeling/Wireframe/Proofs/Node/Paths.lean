import Mathlib.Data.List.Basic
import Wireframe.Node.Basic
import Wireframe.Patch.Apply

/-!
Contract: index paths into a tree.

Owns:
- what stands at a path, and the first path at which an id stands;
- `ReplacedAt`, the replacement of the subtree at one path, with what it leaves
  alone;
- `replaceAt`, the tree with a given subtree at a path.

Pre-order is the lexicographic order of paths, a path before its extensions.
-/

namespace Wireframe.Node

/-- Induction over a tree, whose children may all be assumed. -/
@[elab_as_elim] theorem induction {motive : Node → Prop}
    (mk : ∀ attributes children, (∀ child ∈ children, motive child) →
      motive (.mk attributes children))
    (node : Node) : motive node :=
  @Node.rec motive (fun children => ∀ child ∈ children, motive child) mk
    (List.forall_mem_nil _) (fun _ _ head tail => List.forall_mem_cons.mpr ⟨head, tail⟩) node

/-! ### What stands at a path -/

@[simp] theorem at?_nil (tree : Node) : tree.at? [] = some tree := by
  cases tree
  rfl

theorem at?_cons (attributes : Attributes) (children : List Node) (index : Nat)
    (path : List Nat) :
    (mk attributes children).at? (index :: path) =
      children[index]?.bind fun child => child.at? path := by
  rw [at?, children_mk]
  cases children[index]? <;> rfl

theorem at?_append (tree : Node) (path rest : List Nat) :
    tree.at? (path ++ rest) = (tree.at? path).bind fun node => node.at? rest := by
  induction path generalizing tree with
  | nil => rw [List.nil_append, at?_nil, Option.bind_some]
  | cons index path inductionHypothesis =>
      obtain ⟨attributes, children⟩ := tree
      rw [List.cons_append, at?_cons, at?_cons]
      cases children[index]? with
      | none => rfl
      | some child => exact inductionHypothesis child

def BearsAt (tree : Node) (id : String) (path : List Nat) : Prop :=
  ∃ node, tree.at? path = some node ∧ node.id = id

theorem bearsAt_nil {tree : Node} {id : String} : tree.BearsAt id [] ↔ tree.id = id := by
  simp [BearsAt]

theorem bearsAt_cons {attributes : Attributes} {children : List Node} {id : String}
    {index : Nat} {path : List Nat} :
    (mk attributes children).BearsAt id (index :: path) ↔
      ∃ child, children[index]? = some child ∧ child.BearsAt id path := by
  unfold BearsAt
  rw [at?_cons]
  cases children[index]? <;> simp

/-! ### The first path of an id -/

/-- The path of the first node in pre-order that bears the id. -/
structure FirstAt (tree : Node) (id : String) (path : List Nat) : Prop where
  bears : tree.BearsAt id path
  least : ∀ other, tree.BearsAt id other → ¬ other < path

theorem FirstAt.unique {tree : Node} {id : String} {path other : List Nat}
    (first : tree.FirstAt id path) (second : tree.FirstAt id other) : path = other :=
  List.le_antisymm (List.not_lt.mp (first.least other second.bears))
    (List.not_lt.mp (second.least path first.bears))

theorem locateIn?_eq_some {id : String} {start : Nat} {nodes : List Node} {path : List Nat}
    (found : locateIn? id start nodes = some path) :
    ∃ left child right below, nodes = left ++ child :: right ∧
      path = (start + left.length) :: below ∧ locate? id child = some below ∧
      ∀ earlier ∈ left, locate? id earlier = none := by
  induction nodes generalizing start with
  | nil => exact absurd found nofun
  | cons node rest inductionHypothesis =>
      rw [locateIn?] at found
      cases here : locate? id node with
      | some below =>
          simp only [here, Option.some.injEq] at found
          exact ⟨[], node, rest, below, rfl, found.symm, here, List.forall_mem_nil _⟩
      | none =>
          simp only [here] at found
          obtain ⟨left, child, right, below, rfl, rfl, located, missed⟩ :=
            inductionHypothesis found
          refine ⟨node :: left, child, right, below, rfl, ?_, located,
            List.forall_mem_cons.mpr ⟨here, missed⟩⟩
          rw [List.length_cons]
          congr 1
          omega

theorem locateIn?_eq_none {id : String} {start : Nat} {nodes : List Node}
    (missed : locateIn? id start nodes = none) : ∀ node ∈ nodes, locate? id node = none := by
  induction nodes generalizing start with
  | nil => exact List.forall_mem_nil _
  | cons node rest inductionHypothesis =>
      rw [locateIn?] at missed
      cases here : locate? id node with
      | some below => simp [here] at missed
      | none =>
          simp only [here] at missed
          exact List.forall_mem_cons.mpr ⟨here, inductionHypothesis missed⟩

/-- The search finds the first path of an id, or there is none. -/
theorem locate?_spec (id : String) (tree : Node) :
    (∀ path, tree.locate? id = some path → tree.FirstAt id path) ∧
      (tree.locate? id = none → ∀ path, ¬ tree.BearsAt id path) := by
  induction tree using Node.induction with
  | mk attributes children inductionHypothesis =>
      rw [locate?]
      by_cases own : attributes.id = id
      · rw [if_pos own]
        refine ⟨?_, nofun⟩
        rintro path ⟨⟩
        exact ⟨bearsAt_nil.mpr own, fun other _ => List.not_lt_nil other⟩
      · rw [if_neg own]
        constructor
        · intro path found
          obtain ⟨left, child, right, below, rfl, rfl, located, missed⟩ :=
            locateIn?_eq_some found
          rw [Nat.zero_add]
          have first : child.FirstAt id below :=
            (inductionHypothesis child (by simp)).1 below located
          refine ⟨bearsAt_cons.mpr ⟨child, by simp, first.bears⟩, ?_⟩
          intro other bears precedes
          cases other with
          | nil => exact own (bearsAt_nil.mp bears)
          | cons index rest =>
              obtain ⟨found, present, bearsBelow⟩ := bearsAt_cons.mp bears
              rcases List.cons_lt_cons_iff.mp precedes with before | ⟨equal, earlier⟩
              · rw [List.getElem?_append_left before] at present
                have isMember := List.mem_of_getElem? present
                exact absurd bearsBelow
                  ((inductionHypothesis found (by simp [isMember])).2
                    (missed found isMember) rest)
              · subst equal
                simp only [List.getElem?_append_right (Nat.le_refl _), Nat.sub_self,
                  List.getElem?_cons_zero, Option.some.injEq] at present
                subst present
                exact first.least rest bearsBelow earlier
        · intro missed path bears
          have missedAll := locateIn?_eq_none missed
          cases path with
          | nil => exact own (bearsAt_nil.mp bears)
          | cons index rest =>
              obtain ⟨child, present, bearsBelow⟩ := bearsAt_cons.mp bears
              have isMember := List.mem_of_getElem? present
              exact (inductionHypothesis child isMember).2 (missedAll child isMember) rest
                bearsBelow

theorem locate?_eq_some_iff {id : String} {tree : Node} {path : List Nat} :
    tree.locate? id = some path ↔ tree.FirstAt id path := by
  constructor
  · exact (locate?_spec id tree).1 path
  · intro first
    cases found : tree.locate? id with
    | none => exact absurd first.bears ((locate?_spec id tree).2 found path)
    | some other => rw [((locate?_spec id tree).1 other found).unique first]

theorem locate?_eq_none_iff {id : String} {tree : Node} :
    tree.locate? id = none ↔ ∀ path, ¬ tree.BearsAt id path := by
  constructor
  · exact (locate?_spec id tree).2
  · intro missing
    cases found : tree.locate? id with
    | none => rfl
    | some path => exact absurd ((locate?_spec id tree).1 path found).bears (missing path)

/-! ### Modification at a path -/

theorem modifyAt_split (change : Node → Node) (attributes : Attributes) (left right : List Node)
    (child : Node) (path : List Nat) :
    (mk attributes (left ++ child :: right)).modifyAt change (left.length :: path) =
      mk attributes (left ++ child.modifyAt change path :: right) := by
  rw [modifyAt]
  congr 1
  induction left with
  | nil => rfl
  | cons first left inductionHypothesis =>
      simp only [List.cons_append, List.length_cons, List.modify_succ_cons, inductionHypothesis]

/-! ### Replacement at a path -/

/-- One subtree stands in the place of another. All nodes above the path keep their
attributes and their other children, in order. -/
inductive ReplacedAt (before after : Node) : List Nat → Node → Node → Prop
  | here : ReplacedAt before after [] before after
  | child {attributes : Attributes} {left right : List Node} {child edited : Node}
      {path : List Nat} (inside : ReplacedAt before after path child edited) :
      ReplacedAt before after (left.length :: path)
        (mk attributes (left ++ child :: right)) (mk attributes (left ++ edited :: right))

section Replaced

variable {before after tree edited : Node} {path : List Nat}

/-- Modification at a path replaces the subtree there by its image. -/
theorem replacedAt_modifyAt (change : Node → Node) (present : tree.at? path = some before) :
    ReplacedAt before (change before) path tree (tree.modifyAt change path) := by
  induction path generalizing tree with
  | nil =>
      rw [at?_nil] at present
      cases present
      exact .here
  | cons index path inductionHypothesis =>
      obtain ⟨attributes, children⟩ := tree
      rw [at?_cons, Option.bind_eq_some_iff] at present
      obtain ⟨child, childPresent, presentBelow⟩ := present
      obtain ⟨inRange, rfl⟩ := List.getElem?_eq_some_iff.mp childPresent
      obtain ⟨left, child, right, rfl, rfl, modified⟩ :=
        List.exists_of_modify (modifyAt change path) inRange
      rw [modifyAt, modified]
      apply ReplacedAt.child
      apply inductionHypothesis
      simpa using presentBelow

/-- At and below the path stands the new subtree. -/
theorem ReplacedAt.at?_append (replaced : ReplacedAt before after path tree edited)
    (rest : List Nat) :
    tree.at? (path ++ rest) = before.at? rest ∧ edited.at? (path ++ rest) = after.at? rest := by
  induction replaced with
  | here => exact ⟨rfl, rfl⟩
  | child inside inductionHypothesis =>
      rw [List.cons_append, at?_cons, at?_cons]
      simpa using inductionHypothesis

/-- A path that neither leads to the subtree nor into it leads to what it led to
before. -/
theorem ReplacedAt.at?_of_apart (replaced : ReplacedAt before after path tree edited)
    {other : List Nat} (notAbove : ¬ other <+: path) (notBelow : ¬ path <+: other) :
    edited.at? other = tree.at? other := by
  induction replaced generalizing other with
  | here => exact absurd List.nil_prefix notBelow
  | @child attributes left right child edited path inside inductionHypothesis =>
      cases other with
      | nil => exact absurd List.nil_prefix notAbove
      | cons index rest =>
          rw [at?_cons, at?_cons]
          by_cases same : index = left.length
          · subst same
            rw [List.cons_prefix_cons] at notAbove notBelow
            simpa using inductionHypothesis (fun above => notAbove ⟨rfl, above⟩)
              fun below => notBelow ⟨rfl, below⟩
          · have untouched : (left ++ edited :: right)[index]? =
                (left ++ child :: right)[index]? := by
              rcases Nat.lt_or_gt_of_ne same with earlier | later
              · rw [List.getElem?_append_left earlier, List.getElem?_append_left earlier]
              · rw [List.getElem?_append_right (Nat.le_of_lt later),
                  List.getElem?_append_right (Nat.le_of_lt later)]
                obtain ⟨offset, isOffset⟩ := Nat.exists_eq_succ_of_ne_zero
                  (Nat.sub_ne_zero_of_lt later)
                rw [isOffset, List.getElem?_cons_succ, List.getElem?_cons_succ]
            rw [untouched]

/-- A replacement tells what stood at the path and, with what stands there now, the
whole tree. -/
theorem ReplacedAt.unique {before' after' edited' : Node}
    (first : ReplacedAt before after path tree edited)
    (second : ReplacedAt before' after' path tree edited') :
    before = before' ∧ (after = after' → edited = edited') := by
  induction first generalizing edited' with
  | here =>
      cases second
      exact ⟨rfl, fun same => same⟩
  | @child attributes left right child edited path inside inductionHypothesis =>
      generalize whole : mk attributes (left ++ child :: right) = tree at second
      generalize place : left.length = index at second
      cases second with
      | child insideToo =>
          obtain ⟨rfl, sameChildren⟩ := Node.mk.inj whole
          obtain ⟨rfl, sameRest⟩ := List.append_inj sameChildren place
          obtain ⟨rfl, rfl⟩ := List.cons.inj sameRest
          obtain ⟨sameBefore, same⟩ := inductionHypothesis insideToo
          refine ⟨sameBefore, fun sameAfter => ?_⟩
          rw [same sameAfter]

theorem ReplacedAt.symm (replaced : ReplacedAt before after path tree edited) :
    ReplacedAt after before path edited tree := by
  induction replaced with
  | here => exact .here
  | child inside inductionHypothesis => exact .child inductionHypothesis

/-- A change that makes the old subtree of the new one makes the old tree of the new one. -/
theorem ReplacedAt.modifyAt_eq (replaced : ReplacedAt before after path tree edited)
    {change : Node → Node} (restores : change after = before) :
    edited.modifyAt change path = tree := by
  have stands := (replaced.at?_append []).2
  rw [List.append_nil, at?_nil] at stands
  have changed := replacedAt_modifyAt change stands
  exact (changed.unique replaced.symm).2 restores

/-- The ids at the paths up to a place in the replaced subtree are what they were if they
are so in the subtree. -/
theorem ReplacedAt.bearsAt_of_lt {id : String} {place : List Nat}
    (replaced : ReplacedAt before after path tree edited)
    (same : ∀ other, other < place → (after.BearsAt id other ↔ before.BearsAt id other)) :
    ∀ other, other < path ++ place → (edited.BearsAt id other ↔ tree.BearsAt id other) := by
  induction replaced with
  | here => exact same
  | @child attributes left right child edited path inside inductionHypothesis =>
      intro other precedes
      cases other with
      | nil => rw [bearsAt_nil, bearsAt_nil]; rfl
      | cons index rest =>
          rw [bearsAt_cons, bearsAt_cons]
          rw [List.cons_append, List.cons_lt_cons_iff] at precedes
          cases precedes with
          | inl earlier =>
              rw [List.getElem?_append_left earlier, List.getElem?_append_left earlier]
          | inr onPath =>
              rw [onPath.1]
              simpa using inductionHypothesis rest onPath.2

/-- A place in the new subtree is the first of its id if the id is nowhere before it. -/
theorem ReplacedAt.firstAt {id : String} {place : List Nat}
    (replaced : ReplacedAt before after path tree edited)
    (same : ∀ other, other < place → (after.BearsAt id other ↔ before.BearsAt id other))
    (bears : after.BearsAt id place)
    (nowhere : ∀ other, other < path ++ place → ¬ tree.BearsAt id other) :
    edited.FirstAt id (path ++ place) where
  bears := by
    obtain ⟨node, present, isId⟩ := bears
    exact ⟨node, (replaced.at?_append place).2.trans present, isId⟩
  least := by
    intro other bearsOther precedes
    exact nowhere other precedes ((replaced.bearsAt_of_lt same other precedes).mp bearsOther)

/-- A replacement that keeps the id at its path does not move the first node of that id. -/
theorem ReplacedAt.firstAt_self {id : String}
    (replaced : ReplacedAt before after path tree edited) (own : after.id = id)
    (first : tree.FirstAt id path) : edited.FirstAt id path := by
  have found : edited.FirstAt id (path ++ []) := by
    refine replaced.firstAt (fun other nothing => absurd nothing (List.not_lt_nil other))
      (bearsAt_nil.mpr own) ?_
    intro other precedes bears
    rw [List.append_nil] at precedes
    exact first.least other bears precedes
  rwa [List.append_nil] at found

end Replaced

/-! ### One tree in the place of another -/

/-- The tree with another one in the place of the subtree at a path. -/
def replaceAt (tree : Node) (path : List Nat) (subtree : Node) : Node :=
  tree.modifyAt (fun _ => subtree) path

section ReplaceAt

variable {tree before after edited : Node} {path : List Nat}

theorem replaceAt_nil (tree subtree : Node) : tree.replaceAt [] subtree = subtree := by
  cases tree
  rfl

theorem replaceAt_cons (attributes : Attributes) (left right : List Node) (child : Node)
    (path : List Nat) (subtree : Node) :
    (mk attributes (left ++ child :: right)).replaceAt (left.length :: path) subtree =
      mk attributes (left ++ child.replaceAt path subtree :: right) :=
  modifyAt_split _ attributes left right child path

theorem exists_of_getElem?_eq_some {children : List Node} {child : Node} {index : Nat}
    (isChild : children[index]? = some child) :
    ∃ left right, children = left ++ child :: right ∧ index = left.length := by
  rcases List.getElem?_eq_some_iff.mp isChild with ⟨inRange, rfl⟩
  refine ⟨children.take index, children.drop (index + 1), ?_, ?_⟩
  · rw [← List.drop_eq_getElem_cons inRange, List.take_append_drop]
  · exact (List.length_take_of_le (Nat.le_of_lt inRange)).symm

/-- A path below the root leads into one of the children. -/
theorem exists_of_at?_cons {attributes : Attributes} {children : List Node} {index : Nat}
    (present : (mk attributes children).at? (index :: path) = some before) :
    ∃ left child right, children = left ++ child :: right ∧ index = left.length ∧
      child.at? path = some before := by
  rw [at?_cons, Option.bind_eq_some_iff] at present
  rcases present with ⟨child, isChild, below⟩
  rcases exists_of_getElem?_eq_some isChild with ⟨left, right, split, isIndex⟩
  exact ⟨left, child, right, split, isIndex, below⟩

theorem replacedAt_self (present : tree.at? path = some before) :
    ReplacedAt before before path tree tree := by
  induction path generalizing tree with
  | nil =>
      cases (at?_nil tree).symm.trans present
      exact .here
  | cons index path inductionHypothesis =>
      cases tree with
      | mk attributes children =>
          rcases exists_of_at?_cons present with ⟨left, child, right, rfl, rfl, below⟩
          exact .child (inductionHypothesis below)

/-- Trees that differ in the subtree at a path alone become equal when both get the
same subtree there. -/
theorem ReplacedAt.replaceAt_eq (replaced : ReplacedAt before after path tree edited)
    (subtree : Node) : edited.replaceAt path subtree = tree.replaceAt path subtree := by
  induction replaced with
  | here => rw [replaceAt_nil, replaceAt_nil]
  | child inside inductionHypothesis =>
      rw [replaceAt_cons, replaceAt_cons, inductionHypothesis]

end ReplaceAt

end Wireframe.Node
