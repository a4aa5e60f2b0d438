import Wireframe.Proofs.Check.Composition
import Wireframe.Proofs.Check.Locations
import Wireframe.Proofs.Document.Ambiguity

/-!
Contract: the report on a document is put together from the reports on its nodes.

Owns:
- `nodeAt?`, the node of a document in data to which an index path leads;
- the violations of a node are a block of those of the document, whatever else the
  document holds, and those of a list of patches are the ones of each patch in turn.
-/

namespace Wireframe.Check

open Json Codec

/-! ### Nodes in data -/

/-- What stands at an index path below a node in data. Every node above it has to be an
object with a list of children. -/
def descend : Value → List Nat → Option Value
  | value, [] => some value
  | .object members, index :: path => (childItems members)[index]?.bind (descend · path)
  | _, _ :: _ => none

/-- The node of a document in data to which an index path leads. -/
def nodeAt? (document : Value) (path : List Nat) : Option Value :=
  match document with
  | .object members => (members.lookup "layoutTree").bind (descend · path)
  | _ => none

theorem ordered_descend {value node : Value} {path : List Nat} (ordered : value.Ordered)
    (leads : descend value path = some node) : node.Ordered := by
  induction path generalizing value with
  | nil =>
      cases leads
      exact ordered
  | cons index path inductionHypothesis =>
      cases value with
      | object members =>
          rw [descend, Option.bind_eq_some_iff] at leads
          rcases leads with ⟨child, isChild, leads⟩
          have isItem := List.mem_of_getElem? isChild
          have isMember := Value.mem_of_lookup (lookup_of_mem_childItems isItem)
          have orderedItems := ((Value.ordered_object members).mp ordered).2 _ isMember
          exact inductionHypothesis ((Value.ordered_array _).mp orderedItems child isItem) leads
      | _ => simp [descend] at leads

theorem ordered_nodeAt? {document node : Value} {path : List Nat} (ordered : document.Ordered)
    (leads : nodeAt? document path = some node) : node.Ordered := by
  cases document with
  | object members =>
      rw [nodeAt?, Option.bind_eq_some_iff] at leads
      rcases leads with ⟨tree, present, leads⟩
      exact ordered_descend
        (((Value.ordered_object members).mp ordered).2 _ (Value.mem_of_lookup present)) leads
  | _ => simp [nodeAt?] at leads

theorem inside_writtenBelow (text : String) (path : List Nat) :
    Inside text (Node.writtenBelow text path) := by
  induction path generalizing text with
  | nil => exact inside_self text
  | cons index path inductionHypothesis =>
      have first : Inside text (text ++ ".children[" ++ toString index ++ "]") := by
        rw [← Node.itemPath_memberPath]
        exact (inside_memberPath text "children").trans (inside_itemPath _ index)
      exact first.trans (inductionHypothesis _)

/-! ### Reports -/

/-- What is found in a node is a block of what is found in the tree around it. -/
theorem block_descend {value node : Value} {path : List Nat}
    (leads : descend value path = some node) (text : String) :
    Block (Node.writtenBelow text path) (check nodeShape value (.node false) text)
      (check nodeShape node (.node false) (Node.writtenBelow text path)) := by
  induction path generalizing value text with
  | nil =>
      cases leads
      exact Block.all _ _
  | cons index path inductionHypothesis =>
      cases value with
      | object members =>
          rw [descend, Option.bind_eq_some_iff] at leads
          rcases leads with ⟨child, isChild, leads⟩
          have present := lookup_of_mem_childItems (List.mem_of_getElem? isChild)
          have children := block_checkMembers (tidy_of_isTidy (isTidy_node false))
            (by simp [nodeShape, optional] : ("children", Need.optional, Rule.list (.node false)) ∈
              nodeShape false) (Or.inr rfl) present text
          have item := block_checkItems isChild (.node false) (memberPath text "children")
          have below := inductionHypothesis leads (itemPath (memberPath text "children") index)
          have inside := inside_writtenBelow (itemPath (memberPath text "children") index) path
          have whole := (children.trans item (inside_itemPath _ index)).trans below inside
          rw [Node.itemPath_memberPath] at whole
          exact whole
      | _ => simp [descend] at leads

theorem block_nodeAt? {document node : Value} {path : List Nat}
    (leads : nodeAt? document path = some node) :
    Block (Node.written path) (violations documentRule document)
      (check nodeShape node (.node false) (Node.written path)) := by
  cases document with
  | object members =>
      rw [nodeAt?, Option.bind_eq_some_iff] at leads
      rcases leads with ⟨tree, present, leads⟩
      have isTree := block_checkMembers (tidy_of_isTidy isTidy_document)
        (by simp [required] : ("layoutTree", Need.required, Rule.node false) ∈ _) (Or.inl rfl)
        present rootPath
      exact isTree.trans (block_descend leads "$.layoutTree") (inside_writtenBelow _ path)
  | _ => simp [nodeAt?] at leads

/-- The violations of a report that are about shapes. -/
def shapeViolations (report : Report) : List Violation :=
  report.violations.filter fun violation => violation.rule == shapeRule

theorem shapeViolations_report (policy : Policy) (value : Value) :
    shapeViolations (report policy value) = violations documentRule value := by
  have shapes : ∀ found ∈ violations documentRule value, (found.rule == shapeRule) = true :=
    fun found isFound => beq_iff_eq.mpr (shapeErrors_check _ _ _ _ found isFound).1
  have ids : ∀ found ∈ uniqueIdViolations value, ¬ (found.rule == shapeRule) = true := by
    intro found isFound
    rw [(warning_of_mem_uniqueIdViolations isFound).1]
    decide
  show (documentViolations value).filter _ = _
  rw [documentViolations, List.filter_append, List.filter_eq_self.mpr shapes,
    List.filter_eq_nil_iff.mpr ids, List.append_nil]

theorem patchesViolations_array (items : List Value) :
    patchesViolations (.array items) = items.zipIdx.flatMap fun entry =>
      (violations patchRule entry.1).map (relocated (itemPath rootPath entry.2)) := by
  rw [patchesViolations, checkItems_eq_flatMap]
  apply List.flatMap_congr
  intro entry _
  exact check_relocated entry.1 patchRule _

theorem exists_validatePatch_iff {value : Value} (ordered : value.Ordered) :
    (∃ patch, validatePatch value = .ok patch) ↔ violations patchRule value = [] := by
  rw [← refusals_validatePatch ordered]
  constructor
  · rintro ⟨patch, accepted⟩
    rw [accepted, refusals]
  · intro clean
    rw [refusals_validatePatch ordered] at clean
    rcases patch_decodes ordered clean with ⟨patch, decodes, -⟩
    exact ⟨patch, validateShape_eq_ok_iff.mpr ⟨clean, decodes⟩⟩

theorem exists_validatePatches_iff {value : Value} (ordered : value.Ordered) :
    (∃ patches, validatePatches value = .ok patches) ↔ patchesViolations value = [] := by
  rw [← refusals_validatePatches ordered]
  constructor
  · rintro ⟨patches, accepted⟩
    rw [accepted, refusals]
  · intro clean
    rw [refusals_validatePatches ordered] at clean
    rcases patches_decode ordered clean with ⟨patches, decodes, -⟩
    exact ⟨patches, by simp only [validatePatches, clean, decoded, decodes]⟩

/-- A list of patches is clean just where each of them is. -/
theorem patchesViolations_array_eq_nil_iff (items : List Value) :
    patchesViolations (.array items) = [] ↔ ∀ item ∈ items, violations patchRule item = [] := by
  rw [patchesViolations_array, List.flatMap_eq_nil_iff]
  constructor
  · intro clean item isItem
    rcases List.mem_iff_getElem?.mp isItem with ⟨index, isItem⟩
    exact List.map_eq_nil_iff.mp (clean (item, index) (List.mem_zipIdx_iff_getElem?.mpr isItem))
  · intro clean entry isEntry
    rw [clean entry.1 (List.fst_mem_of_mem_zipIdx isEntry), List.map_nil]

/-- Reports are put together from those of the parts. In the report on a document the
violations of one node stand together, the same as if the node were looked at alone, and
none of the rest is inside it. The refusal of a list of patches holds those of each patch
in turn, so that the list is accepted just where each patch is. -/
theorem reports_compose :
    (∀ (document node : Value) (path : List Nat), document.Ordered →
      nodeAt? document path = some node →
      (∀ found ∈ refusals (validateNode node), Inside rootPath found.path) ∧
      ∀ policy, Block (Node.written path) (shapeViolations (report policy document))
        ((refusals (validateNode node)).map (relocated (Node.written path)))) ∧
    ∀ items, (Value.array items).Ordered →
      refusals (validatePatches (.array items)) = items.zipIdx.flatMap (fun entry =>
        (refusals (validatePatch entry.1)).map (relocated (itemPath rootPath entry.2))) ∧
      (∀ item ∈ items, ∀ found ∈ refusals (validatePatch item), Inside rootPath found.path) ∧
      ((∃ patches, validatePatches (.array items) = .ok patches) ↔
        ∀ item ∈ items, ∃ patch, validatePatch item = .ok patch) := by
  constructor
  · intro document node path ordered leads
    rw [refusals_validateNode (ordered_nodeAt? ordered leads)]
    refine ⟨inside_of_mem_check node _ rootPath, fun policy => ?_⟩
    have block := block_nodeAt? leads
    rw [check_relocated node] at block
    rw [shapeViolations_report]
    exact block
  · intro items ordered
    have orderedItems := (Value.ordered_array items).mp ordered
    refine ⟨?_, ?_, ?_⟩
    · rw [refusals_validatePatches ordered, patchesViolations_array]
      apply List.flatMap_congr
      intro entry isEntry
      rw [refusals_validatePatch (orderedItems entry.1 (List.fst_mem_of_mem_zipIdx isEntry))]
    · intro item isItem
      rw [refusals_validatePatch (orderedItems item isItem)]
      exact inside_of_mem_check item _ rootPath
    · rw [exists_validatePatches_iff ordered, patchesViolations_array_eq_nil_iff]
      apply forall_congr'
      intro item
      apply forall_congr'
      intro isItem
      exact (exists_validatePatch_iff (orderedItems item isItem)).symm

/-- The second child of the crowded document has no id, and of two patches the second is
none. -/
theorem reports_compose_crowded :
    (nodeAt? crowded [1] = some (.object [("type", .string "text")]) ∧
      Block "$.layoutTree.children[1]" (shapeViolations (report .lenient crowded))
        [violation "$.layoutTree.children[1].id" "required field missing" none]) ∧
      refusals (validatePatches (.array
          [.object [("op", .string "remove"), ("targetId", .string "n")], .null])) =
        [violation "$[1]" "expected object" (some "null")] := by
  have leads : nodeAt? crowded [1] = some (.object [("type", .string "text")]) := rfl
  have block := (reports_compose.1 crowded _ [1] ordered_crowded leads).2 .lenient
  have isWritten : Node.written [1] = "$.layoutTree.children[1]" := by decide
  have missing : refusals (validateNode (.object [("type", .string "text")])) =
      [violation "$.id" "required field missing" none] := by
    rfl
  have ordered : (Value.array
      [.object [("op", .string "remove"), ("targetId", .string "n")], .null]).Ordered := by
    simp only [Value.Ascending, Value.Ordered, Value.OrderedItems, Value.OrderedMembers]
    decide
  have listed := (reports_compose.2 _ ordered).1
  rw [isWritten, missing] at block
  rw [listed]
  exact ⟨⟨leads, block⟩, by decide⟩

end Wireframe.Check
