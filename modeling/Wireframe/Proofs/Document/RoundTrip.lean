import Wireframe.Proofs.Check.Ids
import Wireframe.Proofs.Document.Equality
import Wireframe.Proofs.Json.Parsed
import Wireframe.Proofs.Json.RoundTrip

/-!
Contract: the text form of an accepted document is accepted as that document.

Owns:
- validation of what a validated document is encoded to, under the same policy;
- the round trip through text, which stays within the nesting limit although
  defaults are written out.
-/

namespace Wireframe.Document

open Json Codec Check

section Validated

variable {policy : Policy} {value : Value} {document : Document} {levels : Nat}

/-- What is behind an acceptance: the data is clean and decodes, and what is
encoded is not nested more deeply than the rule of the tree allows. -/
theorem of_validate (ordered : value.Ordered) (room : 2 ≤ levels)
    (shallow : value.depth ≤ 2 * levels + 1) (accepted : validate policy value = .ok document) :
    violations documentRule value = [] ∧ codec.decode value = .ok document ∧ document.Sound ∧
      (codec.encode document).depth ≤ 2 * levels + 1 := by
  have valid := (validate_eq_ok_iff ordered).mp ⟨document, accepted⟩
  have clean := clean_of_unblocked (valid_iff.mp valid)
  obtain ⟨same, acceptedSame, decodes, -⟩ := validate_of_valid ordered valid
  obtain rfl : same = document := Except.ok.inj (acceptedSame.symm.trans accepted)
  obtain ⟨decoded, decodesToo, sound, within⟩ :=
    (Document.agrees room).decodes value rootPath ordered shallow clean
  obtain rfl : decoded = same := Except.ok.inj (decodesToo.symm.trans decodes)
  exact ⟨clean, decodes, sound, within⟩

/-- A sound document passes its rule, and is decoded from what it is encoded to. -/
theorem toValue_spec (sound : document.Sound) (room : 2 ≤ levels)
    (within : (codec.encode document).depth ≤ 2 * levels + 1) :
    document.toValue.Ordered ∧ violations documentRule document.toValue = [] ∧
      codec.decode document.toValue = .ok document :=
  ⟨Value.ordered_sortKeys _, (Document.agrees room).passes document rootPath sound within,
    (Document.agrees room).restores document sound within⟩

theorem validate_toValue (ordered : value.Ordered) (room : 2 ≤ levels)
    (shallow : value.depth ≤ 2 * levels + 1) (accepted : validate policy value = .ok document) :
    validate policy document.toValue = .ok document := by
  obtain ⟨clean, decodes, sound, within⟩ := of_validate ordered room shallow accepted
  obtain ⟨orderedAgain, cleanAgain, decodesAgain⟩ := toValue_spec sound room within
  have sameWarnings : documentViolations document.toValue = documentViolations value := by
    unfold documentViolations
    rw [cleanAgain, clean, uniqueIdViolations_of_decode orderedAgain cleanAgain decodesAgain,
      uniqueIdViolations_of_decode ordered clean decodes]
  have valid := (validate_eq_ok_iff ordered).mp ⟨document, accepted⟩
  have validAgain : (report policy document.toValue).valid = true := by
    rw [valid_iff, sameWarnings]
    exact valid_iff.mp valid
  obtain ⟨again, acceptedAgain, decodesToo, -⟩ := validate_of_valid orderedAgain validAgain
  rw [acceptedAgain, Except.ok.inj (decodesToo.symm.trans decodesAgain)]

end Validated

/-! ### Text -/

theorem deserialize_eq_ok {policy : Policy} {text : String} {document : Document} :
    deserialize policy text = .ok document ↔
      ∃ value, parse text = .ok value ∧ validate policy value = .ok document := by
  unfold deserialize
  cases parsed : parse text with
  | error failure => simp
  | ok value =>
      cases accepted : validate policy value with
      | error rejection => simp [accepted]
      | ok other => simp [accepted]

/-- Half the nesting limit, which a level of the tree uses up two of. -/
def levelLimit : Nat := 63

theorem two_le_levelLimit : 2 ≤ levelLimit := by
  decide

theorem nestingLimit_eq : nestingLimit = 2 * levelLimit + 1 :=
  rfl

variable {policy : Policy} {text : String} {document : Document}

/-- Writing out defaults never takes a document beyond the nesting limit. -/
theorem depth_encode_le (accepted : deserialize policy text = .ok document) :
    (codec.encode document).depth ≤ nestingLimit := by
  obtain ⟨value, parses, acceptedValue⟩ := deserialize_eq_ok.mp accepted
  have parsed := parsed_of_parse parses
  rw [nestingLimit_eq] at parsed ⊢
  exact (of_validate parsed.ordered two_le_levelLimit parsed.depth_le acceptedValue).2.2.2

theorem deserialize_serialize (accepted : deserialize policy text = .ok document) :
    deserialize policy document.serialize = .ok document := by
  obtain ⟨value, parses, acceptedValue⟩ := deserialize_eq_ok.mp accepted
  have parsed := parsed_of_parse parses
  refine deserialize_eq_ok.mpr ⟨document.toValue, parse_pretty (depth_encode_le accepted), ?_⟩
  rw [nestingLimit_eq] at parsed
  exact validate_toValue parsed.ordered two_le_levelLimit parsed.depth_le acceptedValue

/-- The text of an accepted document stays within the nesting limit and is
accepted as an equal document, with the same canonical text and the same text. -/
theorem text_round_trip (policy : Policy) (text : String) (document : Document)
    (accepted : deserialize policy text = .ok document) :
    (codec.encode document).depth ≤ nestingLimit ∧
      ∃ again, deserialize policy document.serialize = .ok again ∧ (again == document) = true ∧
        again.canonical = document.canonical ∧ again.serialize = document.serialize := by
  refine ⟨depth_encode_le accepted, document, deserialize_serialize accepted, ?_, rfl, rfl⟩
  exact BEq.rfl

/-- A leap second, a member under its other name, and a negative zero. -/
def leapText : String :=
  "\x7b\"id\": \"d\", \"createdAt\": \"1990-12-31T15:59:60-08:00\", \"layoutTree\": " ++
    "\x7b\"id\": \"n\", \"type\": \"image\", \"media\": \x7b\"url\": \"u\"\x7d, " ++
    "\"layout\": \x7b\"x\": -0.0\x7d\x7d\x7d"

theorem text_round_trip_leap :
    ∃ document, deserialize .strict leapText = .ok document ∧
      (codec.encode document).depth ≤ nestingLimit ∧
      ∃ again, deserialize .strict document.serialize = .ok again ∧ (again == document) = true ∧
        again.canonical = document.canonical ∧ again.serialize = document.serialize := by
  have isAccepted : (deserialize .strict leapText).isOk = true := by decide +kernel
  cases accepted : deserialize .strict leapText with
  | error failure =>
      rw [accepted] at isAccepted
      exact absurd isAccepted Bool.false_ne_true
  | ok document => exact ⟨document, rfl, text_round_trip .strict leapText document accepted⟩

end Wireframe.Document
