import Wireframe.Proofs.Node.Frame
import Wireframe.Proofs.Patch.Edit

/-!
Contract: edits that bring in fresh ids keep ids distinct.

Owns:
- the ids that a patch brings in, and which nodes are left by it under their ids;
- `Patch.Fresh`, the ids brought in differ from each other and from those left;
- the ids of an edited tree, which are those brought in and those left.

Does not own: how data is checked for repeated ids.
-/

namespace Wireframe.Patch

open Node

/-- The ids that a patch brings in: the one that its payload carries and those of the
children in the payload. A removal brings in nothing. -/
def brought (patch : Patch) : List String :=
  match patch.operation, patch.payload with
  | .remove, _ => []
  | _, none => []
  | _, some payload => payload.id.toList ++ idsAll (payload.children.getD [])

/-- Whether the node at a path is left under its id by the edit of the node at
`target`. A target that is given an id loses its own. -/
def leaves (patch : Patch) (target path : List Nat) : Bool :=
  match patch.operation, patch.payload with
  | .remove, _ => !decide (target <+: path)
  | .insert, _ => true
  | _, none => true
  | _, some payload =>
      if path = target then payload.id.isNone
      else payload.children.isNone || !decide (target <+: path)

/-- The ids that a patch brings in name one node each, and none that the edit
leaves. -/
structure Fresh (patch : Patch) (tree : Node) : Prop where
  distinct : patch.brought.Nodup
  unused : ∀ target path, tree.FirstAt patch.targetId target → patch.leaves target path = true →
    ∀ id ∈ patch.brought, ¬ tree.BearsAt id path

variable {patch : Patch} {payload : Payload} {tree edited node child : Node}
  {target path : List Nat} {left right : List (List Nat × Node)}

/-! ### What is brought and what is left -/

theorem brought_of_merge (merges : patch.operation = .update ∨ patch.operation = .replace)
    (carried : patch.payload = some payload) :
    patch.brought = payload.id.toList ++ idsAll (payload.children.getD []) := by
  rcases merges with isUpdate | isReplace
  · simp [brought, isUpdate, carried]
  · simp [brought, isReplace, carried]

/-- An insertion brings in the ids of the new subtree. -/
theorem brought_of_insert (inserts : patch.operation = .insert)
    (carried : patch.payload = some payload) (spells : payload.Spells child) :
    patch.brought = child.ids := by
  rcases spells with ⟨id, kind, hasId, -, overlays⟩
  cases child with
  | mk attributes children =>
      have own : attributes.id = id := overlays.id.1 id hasId
      have below : children = payload.children.getD [] :=
        overlays.children.unique (overwrites_getD _ _)
      simp [brought, inserts, carried, hasId, ids_mk, own, below]

theorem leaves_of_outside (outside : ¬ target <+: path) : patch.leaves target path = true := by
  have different : path ≠ target := by
    rintro rfl
    exact outside (List.prefix_refl path)
  unfold leaves
  split <;> simp [outside, different]

theorem leaves_of_remove (removes : patch.operation = .remove) (inside : target <+: path) :
    patch.leaves target path = false := by
  simpa [leaves, removes] using inside

theorem leaves_of_insert (inserts : patch.operation = .insert) (target path : List Nat) :
    patch.leaves target path = true := by
  simp [leaves, inserts]

theorem leaves_of_merge (merges : patch.operation = .update ∨ patch.operation = .replace)
    (carried : patch.payload = some payload) (target rest : List Nat) :
    patch.leaves target (target ++ rest) =
      if rest = [] then payload.id.isNone else payload.children.isNone := by
  rcases merges with isUpdate | isReplace
  · simp [leaves, isUpdate, carried]
  · simp [leaves, isReplace, carried]

/-- The nodes that an edit leaves, around the target and in its subtree. -/
theorem filter_leaves (framed : tree.Framed target node left right) :
    tree.places.filter (fun place => patch.leaves target place.1) =
      left ++ (node.places.filter fun place => patch.leaves target (target ++ place.1)).map
        (under target) ++ right := by
  have outside : ∀ place ∈ left ++ right, patch.leaves target place.1 = true :=
    fun place isPlace => leaves_of_outside (framed.outside place isPlace)
  have keptLeft := List.filter_eq_self.mpr fun place isPlace =>
    outside place (List.mem_append_left right isPlace)
  have keptRight := List.filter_eq_self.mpr fun place isPlace =>
    outside place (List.mem_append_right left isPlace)
  rw [framed.places, List.filter_append, List.filter_append, keptLeft, keptRight, List.filter_map]
  rfl

/-- What an overwriting leaves of the ids in the subtree of the target. -/
theorem idsAt_filter_of_merge (merges : patch.operation = .update ∨ patch.operation = .replace)
    (carried : patch.payload = some payload) (target : List Nat) (node : Node) :
    idsAt (node.places.filter fun place => patch.leaves target (target ++ place.1)) =
      (if payload.id.isNone then [node.id] else []) ++
        if payload.children.isNone then idsAll node.children else [] := by
  cases node with
  | mk attributes children =>
      have inside : ∀ place ∈ placesBelow 0 children,
          patch.leaves target (target ++ place.1) = payload.children.isNone := by
        intro place isPlace
        rcases mem_placesBelow.mp isPlace with ⟨index, child, path, -, -, isPath⟩
        rw [leaves_of_merge merges carried, isPath, if_neg (List.cons_ne_nil _ _)]
      have own : patch.leaves target (target ++ []) = payload.id.isNone := by
        rw [leaves_of_merge merges carried, if_pos rfl]
      have others : idsAt ((placesBelow 0 children).filter fun _ => payload.children.isNone) =
          if payload.children.isNone then idsAll children else [] := by
        cases payload.children with
        | none => simp [idsAt_placesBelow]
        | some _ => simp [idsAt]
      rw [places, List.filter_cons, List.filter_congr inside, own, children_mk, ← others]
      cases payload.id <;> rfl

/-! ### The ids of an edited tree -/

theorem perm_ids_of_overlays
    (merges : patch.operation = .update ∨ patch.operation = .replace)
    (carried : patch.payload = some payload) {before after : Node}
    (overlays : payload.Overlays before after)
    (replaced : ReplacedAt before after target tree edited) :
    edited.ids.Perm (patch.brought ++
      idsAt (tree.places.filter fun place => patch.leaves target place.1)) := by
  rcases replaced.exists_framed with ⟨left, right, framed, ids⟩
  rw [ids, filter_leaves framed, brought_of_merge merges carried, idsAt_append, idsAt_append,
    idsAt_map_under, idsAt_filter_of_merge merges carried]
  cases after with
  | mk attributes children =>
      have own : attributes.id = payload.id.getD before.id :=
        overlays.id.unique (overwrites_getD _ _)
      have below : children = payload.children.getD before.children :=
        overlays.children.unique (overwrites_getD _ _)
      rw [ids_mk, own, below, List.perm_iff_count]
      intro id
      cases payload.id <;> cases payload.children <;>
        simp [List.count_cons, idsAll, flattenAll] <;> omega

theorem perm_ids_of_insert (inserts : patch.operation = .insert)
    (carried : patch.payload = some payload) (spells : payload.Spells child)
    {attributes : Attributes} {before behind : List Node}
    (replaced : ReplacedAt (.mk attributes (before ++ behind))
      (.mk attributes (before ++ child :: behind)) target tree edited) :
    edited.ids.Perm (patch.brought ++
      idsAt (tree.places.filter fun place => patch.leaves target place.1)) := by
  rcases replaced.exists_framed with ⟨left, right, framed, ids⟩
  have allLeft : tree.places.filter (fun place => patch.leaves target place.1) = tree.places :=
    List.filter_eq_self.mpr fun place _ => leaves_of_insert inserts target place.1
  rw [ids, allLeft, brought_of_insert inserts carried spells, framed.places, idsAt_append,
    idsAt_append, idsAt_map_under, idsAt_places, ids_mk, ids_mk, idsAll_append, idsAll_append,
    idsAll_cons, List.perm_iff_count]
  intro id
  simp only [List.count_append, List.count_cons]
  omega

theorem perm_ids_of_remove (removes : patch.operation = .remove) {attributes : Attributes}
    {before behind : List Node} {removed : Node} {parent : List Nat}
    (replaced : ReplacedAt (.mk attributes (before ++ removed :: behind))
      (.mk attributes (before ++ behind)) parent tree edited) :
    edited.ids.Perm (patch.brought ++
      idsAt (tree.places.filter fun place =>
        patch.leaves (parent ++ [before.length]) place.1)) := by
  rcases replaced.exists_framed_of_removed with ⟨left, right, framed, ids⟩
  have noneLeft : removed.places.filter (fun place =>
      patch.leaves (parent ++ [before.length]) (parent ++ [before.length] ++ place.1)) = [] := by
    rw [List.filter_eq_nil_iff]
    intro place _
    rw [leaves_of_remove removes (List.prefix_append _ _)]
    exact Bool.false_ne_true
  have nothing : patch.brought = [] := by
    simp [brought, removes]
  rw [ids, filter_leaves framed, noneLeft, nothing, List.map_nil, List.append_nil, idsAt_append,
    List.nil_append]

/-- The ids of an edited tree are those that the patch brings in and those of the nodes
that it leaves. -/
theorem Edits.perm_ids (edits : patch.Edits target tree edited) :
    edited.ids.Perm (patch.brought ++
      idsAt (tree.places.filter fun place => patch.leaves target place.1)) := by
  cases edits with
  | nothing merges absent =>
      have allLeft : tree.places.filter (fun place => patch.leaves target place.1) =
          tree.places := by
        rcases merges with isUpdate | isReplace
        · simp [leaves, isUpdate, absent]
        · simp [leaves, isReplace, absent]
      have nothing : patch.brought = [] := by
        rcases merges with isUpdate | isReplace
        · simp [brought, isUpdate, absent]
        · simp [brought, isReplace, absent]
      rw [allLeft, nothing, idsAt_places, List.nil_append]
  | overlay merges carried overlays replaced =>
      exact perm_ids_of_overlays merges carried overlays replaced
  | insert inserts carried spells place replaced =>
      exact perm_ids_of_insert inserts carried spells replaced
  | remove removes onPath replaced =>
      rw [onPath]
      exact perm_ids_of_remove removes replaced

/-- An edit by a patch with fresh ids keeps ids distinct. -/
theorem Edits.nodup_ids (edits : patch.Edits target tree edited) (fresh : patch.Fresh tree)
    (first : tree.FirstAt patch.targetId target) (distinct : tree.ids.Nodup) :
    edited.ids.Nodup := by
  rw [edits.perm_ids.nodup_iff, List.nodup_append]
  refine ⟨fresh.distinct, ?_, ?_⟩
  · rw [← idsAt_places] at distinct
    exact distinct.sublist (List.filter_sublist.map _)
  · intro id isBrought other isLeft same
    rcases List.mem_map.mp isLeft with ⟨⟨path, node⟩, isPlace, rfl⟩
    rcases List.mem_filter.mp isPlace with ⟨stands, isKept⟩
    exact fresh.unused target path first isKept id isBrought
      ⟨node, mem_places.mp stands, same.symm⟩

theorem nodup_ids_of_apply (fresh : patch.Fresh tree) (distinct : tree.ids.Nodup)
    (applied : patch.apply tree = .ok edited) : edited.ids.Nodup := by
  cases located : tree.locate? patch.targetId with
  | none =>
      rw [apply_of_missing (locate?_eq_none_iff.mp located)] at applied
      cases applied
      exact distinct
  | some target =>
      have first := locate?_eq_some_iff.mp located
      rw [apply_of_firstAt first] at applied
      rcases first.bears with ⟨node, present, -⟩
      exact (edits_of_editAt present applied).nodup_ids fresh first distinct

end Wireframe.Patch
