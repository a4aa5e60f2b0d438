import Wireframe.Proofs.Check.Unknown

/-!
Contract: members that an object does not know are ignored wherever data is read.

Owns:
- for each object of the format, that its decoder reads known members alone;
- `unknown_members_ignored`, the two readings of data that differs in unknown members.
-/

namespace Wireframe

open Json Codec Schema Check

/-! ### Parts of a node -/

theorem Media.reads : Reads (.one .media) Media.codec :=
  reads_record <| fieldsRead_of_data (by decide)

theorem Constraints.reads : Reads (.one .constraints) Constraints.codec :=
  reads_record <| fieldsRead_of_data (by decide)

theorem Layout.reads : Reads (.one .layout) Layout.codec :=
  reads_record <| fieldsRead_of_data (by decide)

theorem Border.reads : Reads (.one .border) Border.codec :=
  reads_record <| fieldsRead_of_data (by decide)

theorem Typography.reads : Reads (.one .typography) Typography.codec :=
  reads_record <| fieldsRead_of_data (by decide)

theorem Style.reads : Reads (.one .style) Style.codec :=
  reads_record <|
    .data (by decide) <|
    .data (by decide) <|
    .data (by decide) <|
    .data (by decide) <|
    .data (by decide) <|
    .cons (.one .border) ⟨by decide, reads_option Border.reads⟩ <|
    .data (by decide) <|
    .cons (.one .typography) ⟨by decide, reads_option Typography.reads⟩ .nil

theorem State.reads : Reads (.one .state) State.codec :=
  reads_record <| fieldsRead_of_data (by decide)

theorem Action.reads : Reads (.one .action) Action.codec :=
  reads_record <| fieldsRead_of_data (by decide)

theorem Event.reads : Reads (.one .event) Event.codec :=
  reads_record <|
    .data (by decide) <|
    .data (by decide) <|
    .cons (.one .action) ⟨by decide, Action.reads⟩ <|
    .data (by decide) .nil

/-! ### Nodes and patches -/

namespace Node

theorem attributes_read : FieldsRead .node Attributes.fields :=
  .data (by decide) <|
  .data (by decide) <|
  .data (by decide) <|
  .data (by decide) <|
  .data (by decide) <|
  .data (by decide) <|
  .cons (.one .media) ⟨by decide, reads_option Media.reads⟩ <|
  .data (by decide) <|
  .cons (.one .constraints) ⟨by decide, reads_option Constraints.reads⟩ <|
  .cons (.one .layout) ⟨by decide, Layout.reads⟩ <|
  .cons (.one .style) ⟨by decide, Style.reads⟩ <|
  .cons (.one .state) ⟨by decide, reads_option State.reads⟩ <|
  .cons (.many .event) ⟨by decide, reads_list Event.reads⟩ .nil

/-- A node is read of known members alone, at every level. -/
theorem reads : Reads (.one .node) codec := by
  intro value
  have both : ReadsAt (.one .node) codec value ∧ ReadsAt (.many .node) (.list codec) value := by
    -- A node is inside the list of its parent's children: both are read in one induction.
    induction value using Value.induction with
    | object members inductionHypothesis =>
        refine ⟨fun node decodes => ?_, fun _ decodes => decodes⟩
        replace decodes : decode (.object members) = .ok node := decodes
        show decode (.object (stripMembers .node members)) = .ok node
        rw [decode] at decodes ⊢
        rcases exists_of_map_eq_ok decodes with ⟨values, found, rfl⟩
        rw [Outcome.toExcept_eq_ok, Outcome.pair_eq_found] at found
        have known : ∀ key ∈ ["children"], Struct.slot? .node key = some (.many .node) := by
          decide
        have foundChildren := find_stripMembers known
          (fun member isMember => (inductionHypothesis member isMember).2)
          (findChildren_eq_found_iff.mp found.2)
        rw [attributes_read.find found.1, findChildren_eq_found_iff.mpr foundChildren]
        rfl
    | array items inductionHypothesis =>
        exact ⟨fun _ decodes => decodes,
          readsAt_list fun item isItem => (inductionHypothesis item isItem).1⟩
    | _ => exact ⟨fun _ decodes => decodes, fun _ decodes => decodes⟩
  exact both.1

end Node

theorem Payload.reads : Reads (.one .node) Payload.codec :=
  reads_record <|
    .data (by decide) <|
    .data (by decide) <|
    .data (by decide) <|
    .data (by decide) <|
    .data (by decide) <|
    .data (by decide) <|
    .cons (.one .media) ⟨by decide, reads_option Media.reads⟩ <|
    .data (by decide) <|
    .cons (.one .constraints) ⟨by decide, reads_option Constraints.reads⟩ <|
    .cons (.one .layout) ⟨by decide, reads_option Layout.reads⟩ <|
    .cons (.one .style) ⟨by decide, reads_option Style.reads⟩ <|
    .cons (.one .state) ⟨by decide, reads_option State.reads⟩ <|
    .cons (.many .event) ⟨by decide, reads_option (reads_list Event.reads)⟩ <|
    .cons (.many .node) ⟨by decide, reads_option (reads_list Node.reads)⟩ .nil

theorem Patch.reads : Reads (.one .patch) Patch.codec :=
  reads_record <|
    .data (by decide) <|
    .data (by decide) <|
    .cons (.one .node) ⟨by decide, reads_option Payload.reads⟩ <|
    .data (by decide) .nil

/-! ### Documents -/

theorem TypeTokens.reads : Reads (.one .typeTokens) TypeTokens.codec :=
  reads_record <| fieldsRead_of_data (by decide)

theorem Tokens.reads : Reads (.one .tokens) Tokens.codec :=
  reads_record <|
    .data (by decide) <|
    .data (by decide) <|
    .data (by decide) <|
    .cons (.one .typeTokens) ⟨by decide, TypeTokens.reads⟩ .nil

theorem Theme.reads : Reads (.one .theme) Theme.codec :=
  reads_record <|
    .data (by decide) <|
    .data (by decide) <|
    .cons (.one .tokens) ⟨by decide, Tokens.reads⟩ .nil

theorem Asset.reads : Reads (.one .asset) Asset.codec :=
  reads_record <| fieldsRead_of_data (by decide)

theorem DataSource.reads : Reads (.one .dataSource) DataSource.codec :=
  reads_record <| fieldsRead_of_data (by decide)

theorem Metadata.reads : Reads (.one .metadata) Metadata.codec :=
  reads_record <| fieldsRead_of_data (by decide)

theorem Document.reads : Reads (.one .document) Document.codec :=
  reads_record <|
    .data (by decide) <|
    .data (by decide) <|
    .data (by decide) <|
    .data (by decide) <|
    .data (by decide) <|
    .data (by decide) <|
    .cons (.one .node) ⟨by decide, Node.reads⟩ <|
    .cons (.many .asset) ⟨by decide, reads_list Asset.reads⟩ <|
    .cons (.many .dataSource) ⟨by decide, reads_list DataSource.reads⟩ <|
    .cons (.one .theme) ⟨by decide, Theme.reads⟩ <|
    .cons (.one .metadata) ⟨by decide, Metadata.reads⟩ .nil

/-! ### Validation -/

namespace Check

section Alike

variable {α : Type} {rule : Rule} {slot : Slot} {codec : Codec α} {value other : Value}

theorem decoded_of_alike (reads : Reads slot codec) (alike : Alike slot value other)
    (decodes : ∃ typed, codec.decode value = .ok typed)
    (decodesOther : ∃ typed, codec.decode other = .ok typed) :
    decoded codec value = decoded codec other := by
  cases decodes with
  | intro typed decodes =>
      cases decodesOther with
      | intro typedOther decodesOther =>
          rw [reads.eq_of_alike alike decodes decodesOther] at decodes
          simp only [decoded, decodes, decodesOther]

theorem violations_of_alike (fits : rule.fits slot = true) (alike : Alike slot value other) :
    violations rule value = violations rule other := by
  unfold violations
  rw [← check_strip value slot rule fits, alike, check_strip other slot rule fits]

/-- Data is accepted or refused alike, to the value that it is read as and to each of
the violations. -/
theorem validateShape_of_alike (fits : rule.fits slot = true) (reads : Reads slot codec)
    (alike : Alike slot value other)
    (decodes : violations rule value = [] → ∃ typed, codec.decode value = .ok typed)
    (decodesOther : violations rule other = [] → ∃ typed, codec.decode other = .ok typed) :
    validateShape rule codec value = validateShape rule codec other := by
  have same := violations_of_alike fits alike
  unfold validateShape
  rw [← same] at decodesOther ⊢
  cases found : violations rule value with
  | nil => exact decoded_of_alike reads alike (decodes found) (decodesOther found)
  | cons first rest => rfl

end Alike

section Ignored

variable {value other : Value} (ordered : value.Ordered) (orderedOther : other.Ordered)
include ordered orderedOther

theorem validate_of_alike (alike : Alike (.one .document) value other) (policy : Policy) :
    report policy value = report policy other ∧ validate policy value = validate policy other := by
  have same : documentViolations value = documentViolations other := by
    rw [← documentViolations_strip value, alike, documentViolations_strip]
  have reported : report policy value = report policy other := by
    simp only [report, same]
  refine ⟨reported, ?_⟩
  by_cases valid : (report policy value).valid = true
  · have validOther := valid
    rw [reported] at validOther
    rcases validate_of_valid ordered valid with ⟨document, accepted, decodes, -⟩
    rcases validate_of_valid orderedOther validOther with ⟨document', accepted', decodes', -⟩
    rw [accepted, accepted', Document.reads.eq_of_alike alike decodes decodes']
  · have invalidOther := valid
    rw [reported] at invalidOther
    rw [validate_of_not_valid valid, validate_of_not_valid invalidOther, reported]

theorem validateNode_of_alike (alike : Alike (.one .node) value other) :
    validateNode value = validateNode other := by
  apply validateShape_of_alike rfl Node.reads alike
  · exact fun clean => (node_decodes ordered clean).imp fun _ spec => spec.1
  · exact fun clean => (node_decodes orderedOther clean).imp fun _ spec => spec.1

theorem validatePatch_of_alike (alike : Alike (.one .patch) value other) :
    validatePatch value = validatePatch other := by
  apply validateShape_of_alike fits_patch Patch.reads alike
  · exact fun clean => (patch_decodes ordered clean).imp fun _ spec => spec.1
  · exact fun clean => (patch_decodes orderedOther clean).imp fun _ spec => spec.1

theorem validatePatches_of_alike (alike : Alike (.many .patch) value other) :
    validatePatches value = validatePatches other := by
  have same : patchesViolations value = patchesViolations other := by
    rw [← patchesViolations_strip value, alike, patchesViolations_strip]
  unfold validatePatches
  rw [← same]
  cases found : patchesViolations value with
  | cons first rest => rfl
  | nil =>
      apply decoded_of_alike (reads_list Patch.reads) alike
      · exact (patches_decode ordered found).imp fun _ spec => spec.1
      · exact (patches_decode orderedOther (same ▸ found)).imp fun _ spec => spec.1

end Ignored

/-- Of documents, nodes and patches, valid or not, that differ in members which their
objects do not know, the same is reported and the same is read. -/
theorem unknown_members_ignored (value other : Value) (ordered : value.Ordered)
    (orderedOther : other.Ordered) :
    (Alike (.one .document) value other → ∀ policy,
        report policy value = report policy other ∧
          validate policy value = validate policy other) ∧
      (Alike (.one .node) value other → validateNode value = validateNode other) ∧
      (Alike (.one .patch) value other → validatePatch value = validatePatch other) ∧
      (Alike (.many .patch) value other → validatePatches value = validatePatches other) :=
  ⟨validate_of_alike ordered orderedOther, validateNode_of_alike ordered orderedOther,
    validatePatch_of_alike ordered orderedOther, validatePatches_of_alike ordered orderedOther⟩

/-- A member that no object knows, there or not. -/
def notes : Bool → List (String × Value)
  | true => [("_note", .bool true)]
  | false => []

/-- A document with such members in its root, in a node, in a border of the wrong width
and in a data source. -/
def annotated (noted : Bool) : Value :=
  .object (notes noted ++ [
    ("dataSources", .array [
      .object (notes noted ++ [("config", .object []), ("id", .string "s"),
        ("name", .string "s"), ("sample", .null), ("type", .string "static")])]),
    ("id", .string "d"),
    ("layoutTree", .object (notes noted ++ [
      ("id", .string "n"),
      ("style", .object [("border", .object (notes noted ++ [("width", .string "wide")]))]),
      ("type", .string "page")]))])

/-- The insertion of a node, with such members in the patch, its payload and a child. -/
def annotatedPatches (noted : Bool) : Value :=
  .array [
    .object (notes noted ++ [
      ("op", .string "insert"),
      ("payload", .object (notes noted ++ [
        ("children", .array [
          .object (notes noted ++ [("id", .string "c"), ("type", .string "text")])]),
        ("id", .string "p"), ("type", .string "card")])),
      ("targetId", .string "n")])]

theorem ordered_annotated (noted : Bool) :
    (annotated noted).Ordered ∧ (annotatedPatches noted).Ordered := by
  cases noted <;>
    simp only [annotated, annotatedPatches, notes, List.cons_append, List.nil_append,
      Value.Ascending, Value.Ordered, Value.OrderedItems, Value.OrderedMembers] <;>
    decide

theorem unknown_members_ignored_annotated :
    (annotated true ≠ annotated false ∧
        (report .lenient (annotated true)).violations.map Violation.path =
          ["$.layoutTree.style.border.width"] ∧
        ∀ policy, report policy (annotated true) = report policy (annotated false) ∧
          validate policy (annotated true) = validate policy (annotated false)) ∧
      refusals (validatePatches (annotatedPatches true)) = [] ∧
      validatePatches (annotatedPatches true) = validatePatches (annotatedPatches false) := by
  refine ⟨⟨by simp [annotated, notes], by decide, ?_⟩, ?_, ?_⟩
  · exact (unknown_members_ignored _ _ (ordered_annotated true).1 (ordered_annotated false).1).1 rfl
  · rw [refusals_validatePatches (ordered_annotated true).2]
    decide
  · exact (unknown_members_ignored _ _ (ordered_annotated true).2
      (ordered_annotated false).2).2.2.2 rfl

end Check

end Wireframe
