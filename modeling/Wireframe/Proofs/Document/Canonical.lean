import Wireframe.Digest.Fingerprint
import Wireframe.Proofs.Digest.Collision
import Wireframe.Proofs.Document.Editing
import Wireframe.Proofs.Json.Compact

/-!
Contract: canonical text is lossless.

Owns:
- `Reachable`, the documents that come from validated data by accepted patches;
- such documents from their canonical text, and raw data from its own;
- fingerprints, which two such documents share only through a collision.
-/

namespace Wireframe

open Json Check Digest

namespace Document

/-- A document that validation accepted, after edits by accepted patches. -/
inductive Reachable (document : Document) : Prop where
  | edited {policy : Policy} {value : Value} {start : Document} (edits : List Edit)
      (ordered : value.Ordered) (accepted : validate policy value = .ok start)
      (patches : ∀ edit ∈ edits, ∀ patch ∈ edit.patches, patch.Accepted)
      (reached : Edit.runAll start edits = document)

section Reachable

variable {document left right : Document}

theorem Reachable.validated {policy : Policy} {value : Value} (ordered : value.Ordered)
    (accepted : validate policy value = .ok document) : document.Reachable :=
  .edited [] ordered accepted (List.forall_mem_nil _) rfl

theorem Reachable.sound (reachable : document.Reachable) : document.Sound := by
  obtain ⟨edits, ordered, accepted, patches, rfl⟩ := reachable
  have startKept : Edit.Keeps _ _ := ⟨(sound_of_validate ordered accepted).2, rfl⟩
  exact (Edit.keeps_runAll patches startKept).sound

/-- Sound documents are decoded from their values, which their canonical texts
determine. -/
theorem Sound.eq_of_canonical_eq (leftSound : left.Sound) (rightSound : right.Sound)
    (same : left.canonical = right.canonical) : left = right := by
  have sameValue : left.toValue = right.toValue := Value.canonical_eq_iff.mp same
  have leftDecodes := leftSound.toValue_spec.2.2
  rw [sameValue, rightSound.toValue_spec.2.2] at leftDecodes
  exact (Except.ok.inj leftDecodes).symm

theorem Sound.eq_or_collision (leftSound : left.Sound) (rightSound : right.Sound)
    (same : left.fingerprint = right.fingerprint) :
    left = right ∨ Collision (utf8 left.canonical) (utf8 right.canonical) :=
  (Digest.eq_or_collision same).imp_left (leftSound.eq_of_canonical_eq rightSound)

end Reachable

/-- Canonical text loses nothing. Reachable documents with one canonical text are
equal, and so are raw values with one; documents share a fingerprint only where they
are equal or their canonical texts collide. -/
theorem canonical_lossless :
    (∀ left right : Document, left.Reachable → right.Reachable →
        left.canonical = right.canonical → (left == right) = true ∧ left = right) ∧
      (∀ left right : Value, left.Ordered → right.Ordered →
        left.canonical = right.canonical → left = right) ∧
      ∀ left right : Document, left.Reachable → right.Reachable →
        left.fingerprint = right.fingerprint →
          left = right ∨ Collision (utf8 left.canonical) (utf8 right.canonical) := by
  refine ⟨?_, ?_, ?_⟩
  · intro left right leftReached rightReached same
    obtain rfl := leftReached.sound.eq_of_canonical_eq rightReached.sound same
    exact ⟨BEq.rfl, rfl⟩
  · exact fun left right leftOrdered rightOrdered same =>
      Value.eq_of_canonical_eq leftOrdered rightOrdered same
  · exact fun left right leftReached rightReached same =>
      leftReached.sound.eq_or_collision rightReached.sound same

/-- A document that leaves defaults out. -/
def brief : Value :=
  .object [("id", .string "d"),
    ("layoutTree", .object [("id", .string "n"), ("type", .string "image")]),
    ("theme", .object [])]

/-- The same with a text at its node, and a default written out. -/
def detailed : Value :=
  .object [("id", .string "d"),
    ("layoutTree", .object [("id", .string "n"), ("text", .string "t"), ("type", .string "image")]),
    ("theme", .object []), ("version", .string "0.1.0")]

theorem canonical_lossless_brief :
    ∃ start written, validate .lenient brief = .ok start ∧
      validate .lenient detailed = .ok written ∧
      Edit.runAll start [.apply (.update "n" (.ofText "t"))] = written := by
  have orderedBrief : brief.Ordered := by
    simp only [brief, Value.Ascending, Value.Ordered, Value.OrderedMembers]
    decide
  have orderedDetailed : detailed.Ordered := by
    simp only [detailed, Value.Ascending, Value.Ordered, Value.OrderedMembers]
    decide
  have orderedRewording : Edit.rewording.Ordered := by
    simp only [Edit.rewording, Value.Ascending, Value.Ordered, Value.OrderedMembers]
    decide
  have briefAccepted : (report .lenient brief).valid = true := by decide
  have detailedAccepted : (report .lenient detailed).valid = true := by decide
  obtain ⟨start, opened⟩ := (validate_eq_ok_iff orderedBrief).mpr briefAccepted
  obtain ⟨written, openedWritten⟩ := (validate_eq_ok_iff orderedDetailed).mpr detailedAccepted
  have rewords : validatePatch Edit.rewording = .ok (.update "n" (.ofText "t")) := rfl
  have accepted := Patch.Accepted.alone orderedRewording rewords
  have canonicals : (validate .lenient brief).toOption.map (fun start =>
        (Edit.runAll start [.apply (.update "n" (.ofText "t"))]).toValue.compactChars) =
      (validate .lenient detailed).toOption.map fun written => written.toValue.compactChars := by
    decide +kernel
  rw [opened, openedWritten] at canonicals
  refine ⟨start, written, opened, openedWritten, ?_⟩
  have edited : (Edit.runAll start [.apply (.update "n" (.ofText "t"))]).Reachable :=
    .edited _ orderedBrief opened (by simp [Edit.patches, accepted]) rfl
  have validated := Reachable.validated orderedDetailed openedWritten
  have same := congrArg String.ofList (Option.some.inj canonicals)
  exact (canonical_lossless.1 _ _ edited validated same).2

end Document

end Wireframe
