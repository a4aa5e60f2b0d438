import Wireframe.Proofs.Node.First
import Wireframe.Proofs.Patch.Edit

/-!
Contract: two edits, one after the other.

Owns:
- `Changes`, a patch that succeeds on every tree and changes the node it names;
- edits of two targets, which may be made in either order;
- `Payload.atop`, two payloads in one, and edits of one target in a row.

Does not own: edits that take a node away.
-/

namespace Wireframe

/-! ### Edits as changes of a node -/

namespace Patch

/-- The patch succeeds on every tree and changes the first node that bears its id. -/
def Changes (patch : Patch) (change : Node → Node) : Prop :=
  ∀ tree, patch.apply tree = .ok (tree.changeFirst patch.targetId change)

section Changes

variable {patch first second : Patch} {change firstChange secondChange : Node → Node}

theorem changes_of_editAt
    (edits : ∀ path tree, patch.editAt path tree = .ok (tree.modifyAt change path)) :
    patch.Changes change := by
  intro tree
  cases found : tree.locate? patch.targetId with
  | none =>
      rw [apply_of_missing (Node.locate?_eq_none_iff.mp found), Node.changeFirst_of_missing found]
  | some path =>
      rw [apply_of_firstAt (Node.locate?_eq_some_iff.mp found), edits,
        Node.changeFirst_of_found found]

theorem changes_of_merge (merges : patch.operation = .update ∨ patch.operation = .replace)
    {payload : Payload} (carried : patch.payload = some payload) :
    patch.Changes payload.merge :=
  changes_of_editAt (editAt_of_merge merges carried)

/-- Without a payload there is nothing to change. -/
theorem changes_of_absent (merges : patch.operation = .update ∨ patch.operation = .replace)
    (absent : patch.payload = none) : patch.Changes fun node => node := by
  intro tree
  rw [Node.changeFirst_of_fixed fun node _ => rfl]
  cases found : tree.locate? patch.targetId with
  | none => exact apply_of_missing (Node.locate?_eq_none_iff.mp found)
  | some path =>
      rw [apply_of_firstAt (Node.locate?_eq_some_iff.mp found), editAt_of_absent merges absent]

theorem changes_of_insert (inserts : patch.operation = .insert) {payload : Payload}
    {child : Node} (carried : patch.payload = some payload)
    (spelled : payload.toNode patch.targetId = .ok child) :
    patch.Changes (Node.insertChild (patch.position.getD 0).toNat child) :=
  changes_of_editAt (editAt_of_insert inserts carried spelled)

theorem Changes.applyAll_pair (changesFirst : first.Changes firstChange)
    (changesSecond : second.Changes secondChange) (tree : Node) :
    applyAll [first, second] tree =
      .ok ((tree.changeFirst first.targetId firstChange).changeFirst second.targetId
        secondChange) := by
  rw [applyAll_cons_of_ok (changesFirst tree), applyAll_singleton, changesSecond]

end Changes

end Patch

/-! ### Changes that spare an id -/

namespace Node

section Spares

variable {other : String} {child : Node} {below : Node → Node}

theorem length_changeFirstIn (id : String) (change : Node → Node) (nodes : List Node) :
    (changeFirstIn id change nodes).length = nodes.length := by
  induction nodes with
  | nil => rw [changeFirstIn]
  | cons node rest inductionHypothesis =>
      rw [changeFirstIn]
      by_cases found : node.bears id = true
      · rw [if_pos found, List.length_cons, List.length_cons]
      · rw [if_neg found, List.length_cons, List.length_cons, inductionHypothesis]

/-- A tree in which no node bears the id may be put between others before a change or
after it. -/
theorem changeFirstIn_insertIdx (absent : child.bears other = false) (position : Nat)
    (nodes : List Node) :
    changeFirstIn other below (nodes.insertIdx position child) =
      (changeFirstIn other below nodes).insertIdx position child := by
  have passed : ∀ rest, changeFirstIn other below (child :: rest) =
      child :: changeFirstIn other below rest := by
    intro rest
    rw [changeFirstIn, absent]
    rfl
  induction nodes generalizing position with
  | nil =>
      cases position with
      | zero => exact passed []
      | succ position => simp only [List.insertIdx_succ_nil, changeFirstIn]
  | cons node rest inductionHypothesis =>
      cases position with
      | zero => exact passed (node :: rest)
      | succ position =>
          rw [List.insertIdx_succ_cons, changeFirstIn, changeFirstIn]
          by_cases found : node.bears other = true
          · rw [if_pos found, if_pos found, List.insertIdx_succ_cons]
          · rw [if_neg found, if_neg found, List.insertIdx_succ_cons, inductionHypothesis]

theorem spares_insertChild (absent : child.bears other = false) (position : Nat) :
    Spares other (insertChild position child) where
  bears := by
    intro node
    cases node with
    | mk attributes children =>
        have permuted := List.perm_insertIdx child children (Nat.min_le_right position _)
        rw [insertChild, bears_mk, bears_mk, permuted.any_eq, List.any_cons, absent,
          Bool.false_or]
  passes := by
    intro below node different
    cases node with
    | mk attributes children =>
        have notOther : attributes.id ≠ other := different
        rw [insertChild, changeFirst_mk_of_ne notOther, changeFirst_mk_of_ne notOther,
          insertChild, changeFirstIn_insertIdx absent, length_changeFirstIn]

theorem spares_nothing (other : String) : Spares other fun node => node :=
  ⟨fun _ => rfl, fun _ _ _ => rfl⟩

end Spares

end Node

namespace Payload

/-- A payload without an id and children leaves both alone, whatever the children are. -/
theorem exists_merge_eq {payload : Payload} (keepsId : payload.id = none)
    (keepsChildren : payload.children = none) (attributes : Attributes) :
    ∃ after : Attributes, after.id = attributes.id ∧
      ∀ children, payload.merge (.mk attributes children) = .mk after children := by
  refine ⟨(payload.merge (.mk attributes [])).attributes, ?_, ?_⟩
  · rw [merge, Node.attributes_mk, keepsId, Option.getD_none]
  · intro children
    rw [merge, merge, Node.attributes_mk, keepsChildren, Option.getD_none]

theorem spares_merge {payload : Payload} (keepsId : payload.id = none)
    (keepsChildren : payload.children = none) (other : String) :
    Node.Spares other payload.merge where
  bears := by
    intro node
    cases node with
    | mk attributes children =>
        obtain ⟨after, sameId, merges⟩ := exists_merge_eq keepsId keepsChildren attributes
        rw [merges, Node.bears_mk, Node.bears_mk, sameId]
  passes := by
    intro below node different
    cases node with
    | mk attributes children =>
        obtain ⟨after, sameId, merges⟩ := exists_merge_eq keepsId keepsChildren attributes
        have notOther : attributes.id ≠ other := different
        rw [merges, Node.changeFirst_mk_of_ne (sameId ▸ notOther),
          Node.changeFirst_mk_of_ne notOther, merges]

theorem toNode_of_spells {payload : Payload} {node : Node} (spells : payload.Spells node)
    (targetId : String) : payload.toNode targetId = .ok node := by
  obtain ⟨id, kind, hasId, hasKind, overlays⟩ := spells
  unfold toNode
  rw [hasId, hasKind, overlays.unique (merge_overlays payload _)]

end Payload

/-! ### Edits of two targets -/

namespace Patch

/-- The patch has nothing to do with the nodes that bear an id: it overwrites members
other than the id and the children of its target, or adds a tree without the id. -/
inductive Avoids (patch : Patch) (other : String) : Prop
  | overwrites (merges : patch.operation = .update ∨ patch.operation = .replace)
      (keeps : ∀ payload ∈ patch.payload, payload.id = none ∧ payload.children = none) :
      Avoids patch other
  | inserts {payload : Payload} {child : Node} (inserts : patch.operation = .insert)
      (carried : patch.payload = some payload) (spells : payload.Spells child)
      (fresh : ∀ node ∈ child.flatten, node.id ≠ other) : Avoids patch other

theorem Avoids.exists_change {patch : Patch} {other : String} (avoids : patch.Avoids other) :
    ∃ change, patch.Changes change ∧ Node.Spares other change := by
  cases avoids with
  | overwrites merges keeps =>
      cases carried : patch.payload with
      | none => exact ⟨_, changes_of_absent merges carried, Node.spares_nothing other⟩
      | some payload =>
          obtain ⟨keepsId, keepsChildren⟩ := keeps payload carried
          exact ⟨payload.merge, changes_of_merge merges carried,
            Payload.spares_merge keepsId keepsChildren other⟩
  | inserts inserts carried spells fresh =>
      have spelled := Payload.toNode_of_spells spells patch.targetId
      exact ⟨_, changes_of_insert inserts carried spelled,
        Node.spares_insertChild (Node.bears_eq_false_iff.mpr fresh) _⟩

/-- Edits of two targets that have nothing to do with each other succeed in either order
and make the same tree. The targets may be missing or repeated, and one may be inside
the other. -/
theorem independent_edits_commute (tree : Node) (first second : Patch)
    (different : first.targetId ≠ second.targetId) (avoidsSecond : first.Avoids second.targetId)
    (avoidsFirst : second.Avoids first.targetId) :
    ∃ edited, applyAll [first, second] tree = .ok edited ∧
      applyAll [second, first] tree = .ok edited := by
  obtain ⟨firstChange, changesFirst, sparesSecond⟩ := avoidsSecond.exists_change
  obtain ⟨secondChange, changesSecond, sparesFirst⟩ := avoidsFirst.exists_change
  refine ⟨_, changesFirst.applyAll_pair changesSecond tree, ?_⟩
  rw [changesSecond.applyAll_pair changesFirst,
    Node.changeFirst_comm different sparesSecond sparesFirst]

/-- A new first child of the page. -/
def greeting : Patch :=
  .insert "page" (.mk { id := "hello", kind := .text } []) none

/-- A text for the first of the twins. -/
def labelling : Patch :=
  .update "twin" (.ofText "first")

/-- The new child moves the twins by one, and the text finds the first of them all the
same. -/
theorem independent_edits_commute_nested :
    applyAll [greeting, labelling] twins =
        .ok (.mk { id := "page", kind := .page }
          [.mk { id := "hello", kind := .text } [],
            .mk { id := "twin", kind := .card, text := some "first" } [],
            .mk { id := "twin", kind := .card } []]) ∧
      applyAll [labelling, greeting] twins = applyAll [greeting, labelling] twins := by
  have spelled : (Payload.ofNode (.mk { id := "hello", kind := .text } [])).toNode "page" =
      .ok (.mk { id := "hello", kind := .text } []) := rfl
  have avoidsTwin : greeting.Avoids labelling.targetId := by
    refine .inserts rfl rfl (Payload.spells_of_toNode spelled) ?_
    simp [Node.flatten, Node.flattenAll, Node.id, labelling, update]
  have avoidsPage : labelling.Avoids greeting.targetId := by
    refine .overwrites (Or.inl rfl) ?_
    rintro payload ⟨⟩
    exact ⟨rfl, rfl⟩
  obtain ⟨edited, inOrder, reversed⟩ :=
    independent_edits_commute twins greeting labelling (by decide) avoidsTwin avoidsPage
  exact ⟨rfl, reversed.trans inOrder.symm⟩

end Patch

/-! ### Edits of one target -/

namespace Payload

/-- What one payload carries and, where it carries nothing, what another does. -/
def atop (later earlier : Payload) : Payload where
  id := later.id.or earlier.id
  kind := later.kind.or earlier.kind
  name := later.name.or earlier.name
  role := later.role.or earlier.role
  text := later.text.or earlier.text
  placeholder := later.placeholder.or earlier.placeholder
  media := later.media.or earlier.media
  bindings := later.bindings.or earlier.bindings
  constraints := later.constraints.or earlier.constraints
  layout := later.layout.or earlier.layout
  style := later.style.or earlier.style
  state := later.state.or earlier.state
  events := later.events.or earlier.events
  children := later.children.or earlier.children

theorem merge_atop (later earlier : Payload) (node : Node) :
    (later.atop earlier).merge node = later.merge (earlier.merge node) := by
  cases node with
  | mk attributes children => simp only [merge, atop, Option.getD_or, Option.or_assoc]

theorem atop_self (payload : Payload) : payload.atop payload = payload := by
  simp only [atop, Option.or_self]

theorem merge_ofNode_self (node : Node) : (ofNode node).merge node = node := by
  cases node with
  | mk attributes children =>
      simp only [merge, ofNode, Node.attributes_mk, Node.children_mk, Option.getD_some,
        Option.or_self]

theorem id_merge {payload : Payload} {id : String} (keeps : ∀ carried ∈ payload.id, carried = id)
    {node : Node} (own : node.id = id) : (payload.merge node).id = id := by
  cases node with
  | mk attributes children =>
      show payload.id.getD attributes.id = id
      cases carried : payload.id with
      | none => exact own
      | some other => exact keeps other carried

end Payload

namespace Patch

/-- The patch overwrites members of the node with an id, under either name of the
operation. -/
structure Overwriting (patch : Patch) (targetId : String) (payload : Payload) : Prop where
  targets : patch.targetId = targetId
  merges : patch.operation = .update ∨ patch.operation = .replace
  carried : patch.payload = some payload

section Overwriting

variable {patch first second : Patch} {id : String} {payload earlier later : Payload}

theorem Overwriting.apply_eq (overwriting : patch.Overwriting id payload) (tree : Node) :
    patch.apply tree = .ok (tree.changeFirst id payload.merge) := by
  rw [changes_of_merge overwriting.merges overwriting.carried tree, overwriting.targets]

theorem Overwriting.applyAll_pair (keeps : ∀ carried ∈ earlier.id, carried = id)
    (overwritesFirst : first.Overwriting id earlier)
    (overwritesSecond : second.Overwriting id later) (tree : Node) :
    applyAll [first, second] tree = .ok (tree.changeFirst id (later.atop earlier).merge) := by
  have changesFirst := changes_of_merge overwritesFirst.merges overwritesFirst.carried
  have changesSecond := changes_of_merge overwritesSecond.merges overwritesSecond.carried
  have both : (later.atop earlier).merge = fun node => later.merge (earlier.merge node) :=
    funext (Payload.merge_atop later earlier)
  rw [changesFirst.applyAll_pair changesSecond, overwritesFirst.targets,
    overwritesSecond.targets, both,
    Node.changeFirst_changeFirst fun node own => Payload.id_merge keeps own]

/-- Two edits of one target, the first of which does not rename it, are the one edit
whose payload lays the second over the first. So an edit made twice is made once, and
overwriting the node that is found with all that it holds changes nothing. -/
theorem overlays_compose (tree : Node) (id : String) :
    (∀ earlier later : Payload, (∀ carried ∈ earlier.id, carried = id) →
      ∀ first second both : Patch, first.Overwriting id earlier → second.Overwriting id later →
        both.Overwriting id (later.atop earlier) →
        ∃ edited, applyAll [first, second] tree = .ok edited ∧ both.apply tree = .ok edited) ∧
    (∀ payload : Payload, (∀ carried ∈ payload.id, carried = id) →
      ∀ first second : Patch, first.Overwriting id payload → second.Overwriting id payload →
        ∃ edited, applyAll [first, second] tree = .ok edited ∧ first.apply tree = .ok edited) ∧
    ∀ node, tree.find? id = some node →
      ∀ patch : Patch, patch.Overwriting id (.ofNode node) → patch.apply tree = .ok tree := by
  refine ⟨?_, ?_, ?_⟩
  · intro earlier later keeps first second both overwritesFirst overwritesSecond overwritesBoth
    exact ⟨_, overwritesFirst.applyAll_pair keeps overwritesSecond tree,
      overwritesBoth.apply_eq tree⟩
  · intro payload keeps first second overwritesFirst overwritesSecond
    refine ⟨_, overwritesFirst.applyAll_pair keeps overwritesSecond tree, ?_⟩
    rw [Payload.atop_self]
    exact overwritesFirst.apply_eq tree
  · intro node found patch overwriting
    rw [overwriting.apply_eq, Node.changeFirst_of_fixed]
    intro same isFound
    obtain rfl : node = same := Option.some.inj (found.symm.trans isFound)
    exact Payload.merge_ofNode_self node

end Overwriting

/-- A text and a child that bears the id of its parent. -/
def adoption : Payload :=
  { text := some "old", children := some [.mk { id := "twin", kind := .text } []] }

/-- The second edit finds the parent again and not the child that the first one brought. -/
theorem overlays_compose_adoption :
    applyAll [.update "twin" adoption, .replace "twin" (.ofText "new")] twins =
        .ok (.mk { id := "page", kind := .page }
          [.mk { id := "twin", kind := .card, text := some "new" }
              [.mk { id := "twin", kind := .text } []],
            .mk { id := "twin", kind := .card } []]) ∧
      (update "twin" (Payload.atop (.ofText "new") adoption)).apply twins =
        applyAll [.update "twin" adoption, .replace "twin" (.ofText "new")] twins ∧
      applyAll [.update "twin" adoption, .update "twin" adoption] twins =
        (update "twin" adoption).apply twins ∧
      (update "twin" (.ofNode (.mk { id := "twin", kind := .card } []))).apply twins =
        .ok twins := by
  obtain ⟨composes, repeats, keeps⟩ := overlays_compose twins "twin"
  have adopts : (update "twin" adoption).Overwriting "twin" adoption := ⟨rfl, Or.inl rfl, rfl⟩
  obtain ⟨edited, inSteps, atOnce⟩ := composes adoption (.ofText "new") nofun
    (.update "twin" adoption) (.replace "twin" (.ofText "new"))
    (.update "twin" (Payload.atop (.ofText "new") adoption))
    adopts ⟨rfl, Or.inr rfl, rfl⟩ ⟨rfl, Or.inl rfl, rfl⟩
  obtain ⟨again, twice, once⟩ := repeats adoption nofun _ _ adopts adopts
  refine ⟨rfl, atOnce.trans inSteps.symm, twice.trans once.symm, ?_⟩
  exact keeps _ rfl _ ⟨rfl, Or.inl rfl, rfl⟩

end Patch

end Wireframe
