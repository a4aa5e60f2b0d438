import Wireframe.Check.Validator
import Wireframe.Proofs.Check.Tree
import Wireframe.Proofs.Check.Walk

/-!
Contract: what the gate lets pass.

Owns:
- the violations of shapes are errors and those of ids are warnings;
- data without a violation of its shape decodes, for documents, nodes, patches and
  lists of patches;
- validation as the report and its policy describe it.

Data is held with its keys in order, each of them once, which is how it is
parsed.
-/

namespace Wireframe.Check

open Json Codec

/-! ### Shape violations are errors -/

/-- All violations are errors found by the shape rules. -/
def ShapeErrors (found : List Violation) : Prop :=
  ∀ violation ∈ found, violation.rule = shapeRule ∧ violation.severity = .error

namespace ShapeErrors

theorem nil : ShapeErrors [] :=
  List.forall_mem_nil _

theorem single {path message : String} {actual : Option String} :
    ShapeErrors [violation path message actual] := by
  intro found isMember
  rw [List.mem_singleton.mp isMember]
  exact ⟨rfl, rfl⟩

theorem append {found others : List Violation} (first : ShapeErrors found)
    (second : ShapeErrors others) : ShapeErrors (found ++ others) :=
  List.forall_mem_append.mpr ⟨first, second⟩

theorem flatMap {α : Type} {items : List α} {find : α → List Violation}
    (each : ∀ item ∈ items, ShapeErrors (find item)) : ShapeErrors (items.flatMap find) := by
  intro found isMember
  obtain ⟨item, isItem, among⟩ := List.mem_flatMap.mp isMember
  exact each item isItem found among

end ShapeErrors

/-- What is found about a member are errors if all that is found inside the object is. -/
theorem shapeErrors_checkMember {shape : Bool → List (String × Need × Rule)}
    {members : List (String × Value)}
    (each : ∀ member ∈ members, ∀ rule path, ShapeErrors (check shape member.2 rule path))
    (path : String) (member : String × Need × Rule) :
    ShapeErrors (checkMember (checkersOf shape members) path member) := by
  rcases exists_memberFinds shape members member with ⟨report, isReport, finds⟩
  rw [isReport]
  cases finds with
  | nothing => exact ShapeErrors.nil
  | missing => exact ShapeErrors.single
  | present found | «instead» found => exact each _ (Value.mem_of_lookup found) _ _
  | conflict found => exact (each _ (Value.mem_of_lookup found) _ _).append ShapeErrors.single

theorem shapeErrors_check (shape : Bool → List (String × Need × Rule)) (value : Value)
    (rule : Rule) : ∀ path, ShapeErrors (check shape value rule path) := by
  induction value, rule using check_induction shape with
  | nothing => exact fun _ => ShapeErrors.nil
  | here => exact fun _ => ShapeErrors.single
  | items inside rule item _ inductionHypothesis =>
      intro path
      show ShapeErrors (checkItems shape inside item path 0)
      rw [checkItems_eq_flatMap]
      exact ShapeErrors.flatMap fun entry isEntry =>
        inductionHypothesis entry.1 (List.fst_mem_of_mem_zipIdx isEntry) item _
  | entries members entry inductionHypothesis =>
      exact fun _ => ShapeErrors.flatMap fun member isMember =>
        inductionHypothesis member isMember entry _
  | members members rule rules _ inductionHypothesis =>
      exact fun path => ShapeErrors.flatMap fun member _ =>
        shapeErrors_checkMember inductionHypothesis path member

theorem warning_of_mem_uniqueIdViolations {value : Value} {violation : Violation}
    (isMember : violation ∈ uniqueIdViolations value) :
    violation.rule = uniqueIdRule ∧ violation.severity = .warning := by
  have warnings : ∀ (entries seen : List (String × String)),
      ∀ violation ∈ duplicates seen entries,
        violation.rule = uniqueIdRule ∧ violation.severity = .warning := by
    intro entries
    induction entries with
    | nil => exact fun _ => List.forall_mem_nil _
    | cons entry rest inductionHypothesis =>
        intro seen
        unfold duplicates
        split
        · exact List.forall_mem_cons.mpr ⟨⟨rfl, rfl⟩, inductionHypothesis seen⟩
        · exact inductionHypothesis _
  unfold uniqueIdViolations at isMember
  split at isMember
  · split at isMember
    · exact warnings _ _ _ isMember
    · exact absurd isMember List.not_mem_nil
  · exact absurd isMember List.not_mem_nil

/-! ### Clean data decodes -/

/-- Data without a violation decodes, if rule and codec agree on data of any depth. -/
theorem decodes_of_clean {α : Type} {rule : Rule} {codec : Codec α} {sound : α → Prop}
    {value : Value} (agrees : ∃ depth, value.depth ≤ depth ∧ Agrees depth rule codec sound)
    (ordered : value.Ordered) (clean : violations rule value = []) :
    ∃ decoded, codec.decode value = .ok decoded ∧ sound decoded := by
  obtain ⟨depth, shallow, agreesHere⟩ := agrees
  obtain ⟨decoded, decodes, soundHere, -⟩ :=
    agreesHere.decodes value rootPath ordered shallow clean
  exact ⟨decoded, decodes, soundHere⟩

section Clean

variable {value : Value}

theorem document_decodes (ordered : value.Ordered)
    (clean : violations documentRule value = []) :
    ∃ document, Document.codec.decode value = .ok document ∧ document.Sound :=
  decodes_of_clean ⟨2 * (value.depth + 2) + 1, by omega, Document.agrees (by omega)⟩ ordered
    clean

theorem node_decodes (ordered : value.Ordered)
    (clean : violations (.node false) value = []) :
    ∃ node, Node.codec.decode value = .ok node ∧ node.Sound :=
  decodes_of_clean ⟨2 * value.depth, by omega, Node.agrees value.depth⟩ ordered clean

theorem patch_decodes (ordered : value.Ordered) (clean : violations patchRule value = []) :
    ∃ patch, Patch.codec.decode value = .ok patch ∧ patch.Sound :=
  decodes_of_clean ⟨2 * value.depth + 1, by omega, Patch.agrees value.depth⟩ ordered clean

/-- What is found in data that should be a list of patches. -/
theorem clean_of_patchesViolations_eq_nil (clean : patchesViolations value = []) :
    violations (.list patchRule) value = [] := by
  cases value with
  | array items => exact clean
  | _ => exact absurd clean (wrongKind_ne_nil _ _ _)

theorem patches_decode (ordered : value.Ordered) (clean : patchesViolations value = []) :
    ∃ patches, (Codec.list Patch.codec).decode value = .ok patches ∧
      ∀ patch ∈ patches, patch.Sound := by
  have agrees : Agrees (2 * value.depth + 2) (.list patchRule) (.list Patch.codec)
      fun patches => ∀ patch ∈ patches, patch.Sound := by
    apply agrees_list
    intro inner outer
    obtain rfl : inner = 2 * value.depth + 1 := by omega
    exact Patch.agrees value.depth
  exact decodes_of_clean ⟨_, by omega, agrees⟩ ordered (clean_of_patchesViolations_eq_nil clean)

end Clean

/-! ### Validation -/

section Validation

variable {policy : Policy} {value : Value}

theorem valid_iff : (report policy value).valid = true ↔
    (documentViolations value).filter policy.blocks = [] := by
  simp [report, List.filter_eq_nil_iff]

/-- Errors block under every policy, so that nothing blocks only where the shape
is clean. -/
theorem clean_of_unblocked (unblocked : (documentViolations value).filter policy.blocks = []) :
    violations documentRule value = [] := by
  rw [List.filter_eq_nil_iff] at unblocked
  rw [List.eq_nil_iff_forall_not_mem]
  intro violation isMember
  apply unblocked violation (List.mem_append_left _ isMember)
  have isError := (shapeErrors_check nodeShape value documentRule rootPath violation isMember).2
  simp [Policy.blocks, isError]

/-- Unblocked data becomes the document that it decodes to. -/
theorem validate_of_valid (ordered : value.Ordered)
    (valid : (report policy value).valid = true) :
    ∃ document, validate policy value = .ok document ∧
      Document.codec.decode value = .ok document ∧ document.Sound := by
  rw [valid_iff] at valid
  obtain ⟨document, decodes, sound⟩ := document_decodes ordered (clean_of_unblocked valid)
  refine ⟨document, ?_, decodes, sound⟩
  unfold validate
  rw [show (report policy value).violations = documentViolations value from rfl, valid]
  simp only [decoded, decodes]

/-- Blocked data is refused for what blocks it. -/
theorem validate_of_not_valid (invalid : (report policy value).valid ≠ true) :
    validate policy value =
      .error ⟨(report policy value).violations.filter policy.blocks⟩ := by
  rw [Ne, valid_iff] at invalid
  unfold validate
  split
  · exact absurd ‹_› invalid
  · simp_all

theorem validate_eq_ok_iff (ordered : value.Ordered) :
    (∃ document, validate policy value = .ok document) ↔
      (report policy value).valid = true := by
  constructor
  · rintro ⟨document, accepted⟩
    by_contra invalid
    rw [validate_of_not_valid invalid] at accepted
    exact absurd accepted nofun
  · intro valid
    obtain ⟨document, accepted, -⟩ := validate_of_valid ordered valid
    exact ⟨document, accepted⟩

/-- What is accepted was decoded from its data, and is sound. -/
theorem sound_of_validate (ordered : value.Ordered) {document : Document}
    (accepted : validate policy value = .ok document) :
    Document.codec.decode value = .ok document ∧ document.Sound := by
  have valid := (validate_eq_ok_iff ordered).mp ⟨document, accepted⟩
  obtain ⟨same, acceptedSame, decodes, sound⟩ := validate_of_valid ordered valid
  obtain rfl : same = document := Except.ok.inj (acceptedSame.symm.trans accepted)
  exact ⟨decodes, sound⟩

theorem violations_of_rejection (ordered : value.Ordered) {rejection : Rejection}
    (refused : validate policy value = .error rejection) :
    rejection.violations = (report policy value).violations.filter policy.blocks := by
  by_cases valid : (report policy value).valid = true
  · obtain ⟨document, accepted, -⟩ := validate_of_valid ordered valid
    rw [accepted] at refused
    exact absurd refused nofun
  · rw [validate_of_not_valid valid] at refused
    rw [← Except.error.inj refused]

/-- The lenient policy blocks nothing that the strict one lets pass. -/
theorem validate_lenient_of_strict (ordered : value.Ordered) {document : Document}
    (accepted : validate .strict value = .ok document) :
    validate .lenient value = .ok document := by
  have strictValid := (validate_eq_ok_iff ordered).mp ⟨document, accepted⟩
  have lenientValid : (report .lenient value).valid = true := by
    rw [valid_iff, List.filter_eq_nil_iff] at strictValid ⊢
    intro violation isMember _
    exact strictValid violation isMember (by simp [Policy.blocks])
  obtain ⟨first, strictly, decodes, -⟩ := validate_of_valid ordered strictValid
  obtain ⟨second, leniently, decodesToo, -⟩ := validate_of_valid ordered lenientValid
  rw [accepted] at strictly
  rw [leniently, Except.ok.inj strictly, ← Except.ok.inj (decodes.symm.trans decodesToo)]

end Validation

theorem decoded_eq_ok_iff {α : Type} {codec : Codec α} {value : Value} {typed : α} :
    decoded codec value = .ok typed ↔ codec.decode value = .ok typed := by
  unfold decoded
  cases codec.decode value with
  | ok other => simp
  | error error => simp

/-- Data is accepted as what it decodes to if no shape rule is violated. -/
theorem validateShape_eq_ok_iff {α : Type} {rule : Rule} {codec : Codec α} {value : Value}
    {typed : α} : validateShape rule codec value = .ok typed ↔
      violations rule value = [] ∧ codec.decode value = .ok typed := by
  unfold validateShape
  cases violations rule value with
  | nil => simp [decoded_eq_ok_iff]
  | cons first rest => simp

/-! ### No refusal of the decoder -/

/-- No violation of a result says that checked data could not be decoded. -/
def NeverUndecoded {α : Type} (result : Except Rejection α) : Prop :=
  ∀ rejection, result = .error rejection →
    ∀ violation ∈ rejection.violations, violation.rule ≠ "decode"

theorem ShapeErrors.neverUndecoded {α : Type} {found : List Violation}
    (shapeErrors : ShapeErrors found) :
    NeverUndecoded (Except.error ⟨found⟩ : Except Rejection α) := by
  rintro rejection ⟨⟩ violation isMember
  rw [(shapeErrors violation isMember).1]
  decide

theorem neverUndecoded_validateShape {α : Type} {rule : Rule} {codec : Codec α}
    {value : Value} (decodes : violations rule value = [] →
      ∃ typed, codec.decode value = .ok typed) :
    NeverUndecoded (validateShape rule codec value) := by
  unfold validateShape
  split
  · rename_i clean
    obtain ⟨typed, decodes⟩ := decodes clean
    simp only [decoded, decodes]
    exact fun rejection => nofun
  · exact (shapeErrors_check nodeShape value rule rootPath).neverUndecoded

theorem shapeErrors_patchesViolations (value : Value) :
    ShapeErrors (patchesViolations value) := by
  cases value with
  | array items =>
      exact shapeErrors_check nodeShape (.array items) (.list patchRule) rootPath
  | _ => exact ShapeErrors.single

theorem neverUndecoded_validatePatches {value : Value} (ordered : value.Ordered) :
    NeverUndecoded (validatePatches value) := by
  unfold validatePatches
  split
  · rename_i clean
    obtain ⟨patches, decodes, -⟩ := patches_decode ordered clean
    simp only [decoded, decodes]
    exact fun rejection => nofun
  · exact (shapeErrors_patchesViolations value).neverUndecoded

theorem rule_ne_decode_of_mem {value : Value} {violation : Violation}
    (isMember : violation ∈ documentViolations value) : violation.rule ≠ "decode" := by
  rcases List.mem_append.mp isMember with inShape | inIds
  · rw [(shapeErrors_check nodeShape value documentRule rootPath violation inShape).1]
    decide
  · rw [(warning_of_mem_uniqueIdViolations inIds).1]
    decide

theorem neverUndecoded_validate {policy : Policy} {value : Value} (ordered : value.Ordered) :
    NeverUndecoded (validate policy value) := by
  intro rejection refused violation isMember
  rw [violations_of_rejection ordered refused] at isMember
  exact rule_ne_decode_of_mem (List.mem_filter.mp isMember).1

/-! ### Refusals -/

/-- The violations for which data is refused; none where it is accepted. -/
def refusals {α : Type} : Except Rejection α → List Violation
  | .ok _ => []
  | .error rejection => rejection.violations

theorem refusals_validateShape {α : Type} {rule : Rule} {codec : Codec α} {value : Value}
    (decodes : violations rule value = [] → ∃ typed, codec.decode value = .ok typed) :
    refusals (validateShape rule codec value) = violations rule value := by
  unfold validateShape
  cases found : violations rule value with
  | nil =>
      cases decodes found with
      | intro typed decodes => simp only [decoded, decodes, refusals]
  | cons first rest => rfl

section Refusals

variable {value : Value} (ordered : value.Ordered)
include ordered

theorem refusals_validateNode :
    refusals (validateNode value) = violations (.node false) value := by
  apply refusals_validateShape
  intro clean
  cases node_decodes ordered clean with
  | intro node spec => exact ⟨node, spec.1⟩

theorem refusals_validatePatch : refusals (validatePatch value) = violations patchRule value := by
  apply refusals_validateShape
  intro clean
  cases patch_decodes ordered clean with
  | intro patch spec => exact ⟨patch, spec.1⟩

theorem refusals_validatePatches :
    refusals (validatePatches value) = patchesViolations value := by
  unfold validatePatches
  cases found : patchesViolations value with
  | nil =>
      cases patches_decode ordered found with
      | intro patches spec => simp only [decoded, spec.1, refusals]
  | cons first rest => rfl

end Refusals

/-! ### The gate -/

/-- The shape rules and the decoders describe one format: what the rules pass
decodes, so that validation is what the report says it is. -/
theorem gate_agrees_with_decoders (value : Value) (ordered : value.Ordered) :
    ((violations documentRule value = [] →
        ∃ document, Document.codec.decode value = .ok document) ∧
      (violations (.node false) value = [] → ∃ node, Node.codec.decode value = .ok node) ∧
      (violations patchRule value = [] → ∃ patch, Patch.codec.decode value = .ok patch) ∧
      (patchesViolations value = [] →
        ∃ patches, (Codec.list Patch.codec).decode value = .ok patches)) ∧
    ((∀ policy, NeverUndecoded (validate policy value)) ∧
      (∀ policy, ∀ violation ∈ (report policy value).violations, violation.rule ≠ "decode") ∧
      NeverUndecoded (validateNode value) ∧ NeverUndecoded (validatePatch value) ∧
      NeverUndecoded (validatePatches value)) ∧
    (∀ policy, (∃ document, validate policy value = .ok document) ↔
      (report policy value).valid = true) ∧
    (∀ policy rejection, validate policy value = .error rejection →
      rejection.violations = (report policy value).violations.filter policy.blocks) ∧
    ∀ document, validate .strict value = .ok document →
      validate .lenient value = .ok document := by
  have nodeDecodes : violations (.node false) value = [] →
      ∃ node, Node.codec.decode value = .ok node := by
    intro clean
    obtain ⟨node, decodes, -⟩ := node_decodes ordered clean
    exact ⟨node, decodes⟩
  have patchDecodes : violations patchRule value = [] →
      ∃ patch, Patch.codec.decode value = .ok patch := by
    intro clean
    obtain ⟨patch, decodes, -⟩ := patch_decodes ordered clean
    exact ⟨patch, decodes⟩
  refine ⟨⟨?_, nodeDecodes, patchDecodes, ?_⟩, ⟨?_, ?_, ?_, ?_, ?_⟩, ?_, ?_, ?_⟩
  · intro clean
    obtain ⟨document, decodes, -⟩ := document_decodes ordered clean
    exact ⟨document, decodes⟩
  · intro clean
    obtain ⟨patches, decodes, -⟩ := patches_decode ordered clean
    exact ⟨patches, decodes⟩
  · exact fun policy => neverUndecoded_validate ordered
  · exact fun policy violation isMember => rule_ne_decode_of_mem isMember
  · exact neverUndecoded_validateShape nodeDecodes
  · exact neverUndecoded_validateShape patchDecodes
  · exact neverUndecoded_validatePatches ordered
  · exact fun policy => validate_eq_ok_iff ordered
  · exact fun policy rejection => violations_of_rejection ordered
  · exact fun document => validate_lenient_of_strict ordered

/-- A document of two nodes that share an id: nothing is wrong with its shape, so
the lenient policy accepts it, and the strict one names the id. -/
def twins : Value :=
  .object [("id", .string "d"), ("layoutTree", .object [
    ("children", .array [.object [("id", .string "n"), ("type", .string "text")]]),
    ("id", .string "n"), ("type", .string "page")])]

theorem ordered_twins : twins.Ordered := by
  simp only [twins, Value.Ascending, Value.Ordered, Value.OrderedItems, Value.OrderedMembers]
  decide

theorem gate_agrees_with_decoders_twins :
    (∃ document, Document.codec.decode twins = .ok document) ∧
      (∃ document, validate .lenient twins = .ok document) ∧
      ∀ rejection, validate .strict twins = .error rejection →
        rejection.violations =
          [duplicate "n" "$.layoutTree.children[0]" "$.layoutTree"] := by
  obtain ⟨⟨decodes, -⟩, -, accepted, refused, -⟩ := gate_agrees_with_decoders twins ordered_twins
  refine ⟨decodes (by decide), (accepted .lenient).mpr (by decide), ?_⟩
  intro rejection isRefused
  rw [refused .strict rejection isRefused]
  decide

end Wireframe.Check
