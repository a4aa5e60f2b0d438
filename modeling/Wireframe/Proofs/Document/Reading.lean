import Wireframe.Proofs.Document.Editing
import Wireframe.Proofs.Json.Nesting

/-!
Contract: which sound documents are read back from their text.

Owns:
- the text of a sound document, which is read as its value up to the nesting limit
  and not at all beyond it.

Validated documents stay within the limit by themselves; edited ones need not.
-/

namespace Wireframe.Document

open Json Codec Check

variable {document : Document}

theorem parse_serialize (fits : (codec.encode document).depth ≤ nestingLimit) :
    parse document.serialize = .ok document.toValue :=
  parse_pretty fits

/-- What is read is the value, whose depth bounds that of all that is written: also of
the defaults that the value may have been given without. -/
theorem Sound.depth_le_of_parse_serialize (sound : document.Sound) {value : Value}
    (parses : parse document.serialize = .ok value) :
    (codec.encode document).depth ≤ nestingLimit := by
  have parsed := parsed_of_parse parses
  obtain rfl : value = document.toValue := eq_of_parse_pretty parses
  rw [nestingLimit_eq] at parsed ⊢
  exact (of_validate parsed.ordered two_le_levelLimit parsed.depth_le sound.validate_toValue).2.2.2

theorem Sound.parse_serialize_fails (sound : document.Sound)
    (tooDeep : ¬ (codec.encode document).depth ≤ nestingLimit) :
    ∃ failure, parse document.serialize = .error failure := by
  cases parses : parse document.serialize with
  | error failure => exact ⟨failure, rfl⟩
  | ok value => exact absurd (sound.depth_le_of_parse_serialize parses) tooDeep

theorem Sound.valid_toValue (sound : document.Sound) :
    (report .lenient document.toValue).valid = true :=
  (validate_eq_ok_iff (Value.ordered_sortKeys _)).mp ⟨document, sound.validate_toValue⟩

end Wireframe.Document
