import Wireframe.Proofs.Document.Canonical
import Wireframe.Proofs.Node.Preorder

/-!
Contract: the warnings about repeated ids, and the nodes that edits are looked up by.

Owns:
- index paths as they are written in a report;
- `Warns`, what a warning says about a repeat in a tree;
- the warnings about a document are those about the repeats in its tree, and the strict
  policy refuses the documents in which an id names two nodes.
-/

namespace Wireframe

open Json Check

namespace Node

/-! ### Written paths -/

/-- An index path behind a written one. -/
def writtenBelow (text : String) (path : List Nat) : String :=
  path.foldl (fun above index => above ++ ".children[" ++ toString index ++ "]") text

/-- An index path into the tree of a document, as it is written in a report. -/
def written (path : List Nat) : String :=
  writtenBelow "$.layoutTree" path

theorem itemPath_memberPath (text : String) (index : Nat) :
    itemPath (memberPath text "children") index =
      text ++ ".children[" ++ toString index ++ "]" := by
  have name : text ++ "." ++ "children" ++ "[" = text ++ ".children[" := by
    simp only [String.append_assoc]
    rfl
  rw [itemPath, memberPath, name]

theorem idPathsBelow_eq {nodes : List Node}
    (each : ∀ node ∈ nodes, ∀ text, node.idPaths text =
      node.places.map fun place => (place.2.id, writtenBelow text place.1))
    (text : String) (index : Nat) :
    idPathsBelow nodes (memberPath text "children") index =
      (placesBelow index nodes).map fun place => (place.2.id, writtenBelow text place.1) := by
  induction nodes generalizing index with
  | nil => rfl
  | cons node rest inductionHypothesis =>
      obtain ⟨first, others⟩ := List.forall_mem_cons.mp each
      rw [idPathsBelow, placesBelow, List.map_append, List.map_map, first,
        inductionHypothesis others, itemPath_memberPath]
      rfl

/-- The ids that a check collects, with the written paths of their nodes. -/
theorem idPaths_eq (tree : Node) (text : String) :
    tree.idPaths text =
      tree.places.map fun place => (place.2.id, writtenBelow text place.1) := by
  induction tree using Node.induction generalizing text with
  | mk attributes children inductionHypothesis =>
      rw [idPaths, places, List.map_cons, idPathsBelow_eq inductionHypothesis]
      rfl

/-! ### Warnings -/

/-- What a warning says: the node at a place bears an id that another one bears, and edits
find the other one. -/
structure Warns (tree : Node) (place : List Nat × Node) (violation : Violation) : Prop where
  rule : violation.rule = "unique_id"
  severity : violation.severity = .warning
  path : violation.path = written place.1 ++ ".id"
  actual : violation.actual = some place.2.id
  message : ∃ first, tree.locate? place.2.id = some first ∧
    violation.message = "duplicate node id, first declared at " ++ written first

theorem warns_duplicate {tree : Node} {place : List Nat × Node} {first : List Nat}
    (located : tree.locate? place.2.id = some first) :
    tree.Warns place (duplicate place.2.id (written place.1) (written first)) where
  rule := rfl
  severity := rfl
  path := by
    change written place.1 ++ "." ++ "id" = _
    rw [String.append_assoc]
    rfl
  actual := rfl
  message := ⟨first, located, rfl⟩

theorem lookup_entry_concat (earlier : List (List Nat × Node)) (place : List Nat × Node)
    (id : String) :
    ((earlier ++ [place]).map entry).lookup id =
      ((earlier.map entry).lookup id).or (if id = place.2.id then some place.1 else none) := by
  rw [List.map_append, List.lookup_append]
  congr 1
  exact Value.lookup_cons_eq_ite _ _ _ _

/-- The search through the rest of a tree, where the ids of the earlier places are
remembered with the first path of each. -/
theorem forall₂_duplicates {tree : Node} {earlier rest : List (List Nat × Node)}
    {seen : List (String × String)} (whole : tree.places = earlier ++ rest)
    (remembers : ∀ id, seen.lookup id = ((earlier.map entry).lookup id).map written) :
    List.Forall₂ tree.Warns (((rest.zipIdx earlier.length).filter tree.isRepeat).map Prod.fst)
      (duplicates seen (rest.map fun place => (place.2.id, written place.1))) := by
  induction rest generalizing earlier seen with
  | nil => exact .nil
  | cons place rest inductionHypothesis =>
      have isRepeat : tree.isRepeat (place, earlier.length) =
          ((earlier.map entry).lookup place.2.id).isSome := by
        rw [isSome_lookup_entry, Node.isRepeat, ← map_snd_places, whole, ← List.map_take,
          List.take_left]
      have wholeNext : tree.places = (earlier ++ [place]) ++ rest := by
        rw [whole, List.append_assoc, List.singleton_append]
      have next := @inductionHypothesis (earlier ++ [place])
      rw [List.length_append, List.length_singleton] at next
      rw [List.zipIdx_cons, List.filter_cons, isRepeat, List.map_cons, duplicates,
        remembers place.2.id]
      cases found : (earlier.map entry).lookup place.2.id with
      | some first =>
          have located : tree.locate? place.2.id = some first := by
            rw [← lookup_places, whole, List.map_append, List.lookup_append, found]
            rfl
          refine .cons (warns_duplicate located) (next wholeNext fun id => ?_)
          rw [remembers id, lookup_entry_concat]
          by_cases same : id = place.2.id
          · rw [same, found]
            rfl
          · rw [if_neg same, Option.or_none]
      | none =>
          refine next wholeNext fun id => ?_
          rw [Value.lookup_cons_eq_ite, remembers id, lookup_entry_concat]
          by_cases same : id = place.2.id
          · rw [if_pos same, if_pos same, same, found]
            rfl
          · rw [if_neg same, if_neg same, Option.or_none]

/-- A check warns about the repeats of a tree, in order. -/
theorem forall₂_repeats (tree : Node) :
    List.Forall₂ tree.Warns tree.repeats (duplicates [] (tree.idPaths "$.layoutTree")) := by
  rw [idPaths_eq]
  exact forall₂_duplicates (List.nil_append tree.places).symm fun id => rfl

end Node

/-! ### Documents -/

namespace Document

/-- The warnings of a report that are about ids. -/
def idWarnings (report : Report) : List Violation :=
  report.violations.filter fun violation => violation.rule == uniqueIdRule

/-- A check of data and the edits of the decoded document agree about ids. -/
structure AgreeOnIds (value : Value) (document : Document) : Prop where
  warns : ∀ policy, List.Forall₂ document.layoutTree.Warns document.layoutTree.repeats
    (idWarnings (report policy value))
  refuses : (∃ rejection, validate .strict value = .error rejection) ↔
    document.layoutTree.Ambiguous

variable {value : Value} {document : Document}

/-- The strict policy refuses whatever violates a rule. -/
theorem refused_strict_iff (ordered : value.Ordered) :
    (∃ rejection, validate .strict value = .error rejection) ↔ documentViolations value ≠ [] := by
  have allBlock : (documentViolations value).filter Policy.strict.blocks =
      documentViolations value := List.filter_eq_self.mpr fun _ _ => Bool.or_true _
  have valid_iff_clean := @valid_iff .strict value
  rw [allBlock] at valid_iff_clean
  constructor
  · rintro ⟨rejection, refused⟩ clean
    obtain ⟨document, accepted, -⟩ := validate_of_valid ordered (valid_iff_clean.mpr clean)
    rw [accepted] at refused
    exact absurd refused nofun
  · intro violated
    exact ⟨_, validate_of_not_valid fun valid => violated (valid_iff_clean.mp valid)⟩

/-- Accepted data violates nothing but the rule of ids. -/
theorem documentViolations_of_validate (ordered : value.Ordered)
    (accepted : validate .lenient value = .ok document) :
    documentViolations value = uniqueIdViolations value ∧
      uniqueIdViolations value = duplicates [] (document.layoutTree.idPaths "$.layoutTree") := by
  have valid := (validate_eq_ok_iff ordered).mp ⟨document, accepted⟩
  have clean := clean_of_unblocked (valid_iff.mp valid)
  have decodes := (sound_of_validate ordered accepted).1
  refine ⟨?_, uniqueIdViolations_of_decode ordered clean decodes⟩
  rw [documentViolations, clean, List.nil_append]

theorem idWarnings_of_validate (ordered : value.Ordered)
    (accepted : validate .lenient value = .ok document) (policy : Policy) :
    idWarnings (report policy value) = uniqueIdViolations value := by
  change (documentViolations value).filter _ = _
  rw [(documentViolations_of_validate ordered accepted).1, List.filter_eq_self]
  intro violation isMember
  exact beq_iff_eq.mpr (warning_of_mem_uniqueIdViolations isMember).1

theorem agreeOnIds_of_validate (ordered : value.Ordered)
    (accepted : validate .lenient value = .ok document) : AgreeOnIds value document := by
  obtain ⟨onlyIds, found⟩ := documentViolations_of_validate ordered accepted
  have matched := document.layoutTree.forall₂_repeats
  constructor
  · intro policy
    rw [idWarnings_of_validate ordered accepted, found]
    exact matched
  · have sameLength := matched.length_eq
    rw [refused_strict_iff ordered, onlyIds, found, Node.ambiguous_iff,
      ← List.length_pos_iff, ← List.length_pos_iff, sameLength]

/-- The warnings of a check are those about the nodes that edits do not find, and the strict
policy refuses just the documents in which the target of an edit is ambiguous. -/
theorem agreeOnIds_of_reachable (reachable : document.Reachable) :
    AgreeOnIds document.toValue document ∧
      ∀ value : Value, value.Ordered → validate .lenient value = .ok document →
        AgreeOnIds value document := by
  refine ⟨?_, fun value ordered accepted => agreeOnIds_of_validate ordered accepted⟩
  have sound := reachable.sound
  exact agreeOnIds_of_validate sound.toValue_spec.1 sound.validate_toValue

/-- The tree of the twins, with the shared id named by its root. -/
theorem agreeOnIds_twins : ∃ document, validate .lenient twins = .ok document ∧
    AgreeOnIds document.toValue document ∧ document.layoutTree.Ambiguous := by
  have valid : (report .lenient twins).valid = true := by decide
  obtain ⟨document, accepted⟩ := (validate_eq_ok_iff ordered_twins).mpr valid
  have agrees := agreeOnIds_of_reachable (.validated ordered_twins accepted)
  refine ⟨document, accepted, agrees.1, ?_⟩
  exact (agrees.2 twins ordered_twins accepted).refuses.mp ⟨_, validate_of_not_valid (by decide)⟩

end Document

end Wireframe
