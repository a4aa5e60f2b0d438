import Wireframe.Proofs.Document.RoundTrip
import Wireframe.Proofs.Patch.Soundness

/-!
Contract: editing keeps documents valid.

Owns:
- `Edit`, one step of an editor over the tree of a document, in each of the four
  ways in which patches are applied;
- what one step preserves, and from it what a whole run of steps preserves.
-/

namespace Wireframe

open Json Codec Check

namespace Document

/-! ### Sound documents -/

section Sound

variable {document : Document}

/-- A sound document passes its rule whatever its nesting, and decodes from what
it is encoded to. -/
theorem Sound.toValue_spec (sound : document.Sound) :
    document.toValue.Ordered ∧ violations documentRule document.toValue = [] ∧
      codec.decode document.toValue = .ok document := by
  have room : 2 ≤ (codec.encode document).depth + 2 := by omega
  exact Document.toValue_spec sound room (by omega)

theorem Sound.documentViolations_toValue (sound : document.Sound) :
    documentViolations document.toValue = uniqueIdViolations document.toValue := by
  obtain ⟨-, clean, -⟩ := sound.toValue_spec
  rw [documentViolations, clean, List.nil_append]

/-- Nothing but repeated ids is ever reported about a sound document. -/
theorem Sound.warnings (sound : document.Sound) (policy : Policy) :
    ∀ violation ∈ (report policy document.toValue).violations,
      violation.severity = .warning ∧ violation.rule = uniqueIdRule := by
  intro violation isMember
  change violation ∈ documentViolations document.toValue at isMember
  rw [sound.documentViolations_toValue] at isMember
  exact (warning_of_mem_uniqueIdViolations isMember).symm

theorem Sound.validate_toValue (sound : document.Sound) :
    validate .lenient document.toValue = .ok document := by
  obtain ⟨ordered, -, decodes⟩ := sound.toValue_spec
  have valid : (report .lenient document.toValue).valid = true := by
    rw [valid_iff, List.filter_eq_nil_iff]
    intro violation isMember
    have isWarning := (sound.warnings .lenient violation isMember).1
    simp [Policy.blocks, isWarning]
  obtain ⟨again, accepted, decodesToo, -⟩ := validate_of_valid ordered valid
  rw [accepted, Except.ok.inj (decodesToo.symm.trans decodes)]

end Sound

end Document

/-! ### Steps -/

/-- One step of an editor: a patch or a row of patches, applied to the tree or to
the document. -/
inductive Edit where
  | apply (patch : Patch)
  | applyInPlace (patch : Patch)
  | applyAll (patches : List Patch)
  | patched (patches : List Patch)

namespace Edit

def patches : Edit → List Patch
  | apply patch => [patch]
  | applyInPlace patch => [patch]
  | applyAll patches => patches
  | patched patches => patches

/-- The document after a step, or why the step fails. -/
def run (document : Document) : Edit → Except PatchError Document
  | apply patch => (patch.apply document.layoutTree).map fun layoutTree =>
      { document with layoutTree }
  | applyInPlace patch => (patch.applyHit document.layoutTree).map fun (layoutTree, _) =>
      { document with layoutTree }
  | applyAll patches => (Patch.applyAll patches document.layoutTree).map fun layoutTree =>
      { document with layoutTree }
  | patched patches => document.patched patches

/-- A failing step leaves the document as it was. -/
def after (document : Document) (edit : Edit) : Document :=
  match edit.run document with
  | .ok edited => edited
  | .error _ => document

def runAll (document : Document) (edits : List Edit) : Document :=
  edits.foldl after document

variable {document edited : Document} {edit : Edit}

/-- What a step can do: put another sound tree in place. -/
theorem of_run (sound : document.Sound) (accepted : ∀ patch ∈ edit.patches, patch.Accepted)
    (runs : edit.run document = .ok edited) :
    ∃ layoutTree : Node, layoutTree.Sound ∧ edited = { document with layoutTree } := by
  have soundTree := sound.layoutTree
  cases edit with
  | apply patch =>
      have soundPatch := (accepted patch List.mem_cons_self).sound
      obtain ⟨layoutTree, edits, rfl⟩ := exists_of_map_eq_ok runs
      exact ⟨layoutTree, Patch.sound_apply soundPatch soundTree edits, rfl⟩
  | applyInPlace patch =>
      have soundPatch := (accepted patch List.mem_cons_self).sound
      obtain ⟨⟨layoutTree, hit⟩, edits, rfl⟩ := exists_of_map_eq_ok runs
      exact ⟨layoutTree, Patch.sound_applyHit soundPatch soundTree edits, rfl⟩
  | applyAll patches =>
      have soundPatches := fun patch isMember => (accepted patch isMember).sound
      obtain ⟨layoutTree, edits, rfl⟩ := exists_of_map_eq_ok runs
      exact ⟨layoutTree, Patch.sound_applyAll soundPatches soundTree edits, rfl⟩
  | patched patches =>
      have soundPatches := fun patch isMember => (accepted patch isMember).sound
      obtain ⟨layoutTree, edits, rfl⟩ := exists_of_map_eq_ok runs
      exact ⟨layoutTree, Patch.sound_applyAll soundPatches soundTree edits, rfl⟩

/-- A document that differs from another in a sound tree at most. -/
structure Keeps (start document : Document) : Prop where
  sound : document.Sound
  others : document = { start with layoutTree := document.layoutTree }

theorem keeps_after {start : Document} (keeps : Keeps start document)
    (accepted : ∀ patch ∈ edit.patches, patch.Accepted) : Keeps start (edit.after document) := by
  unfold after
  cases runs : edit.run document with
  | error error => exact keeps
  | ok edited =>
      obtain ⟨layoutTree, soundTree, rfl⟩ := of_run keeps.sound accepted runs
      constructor
      · exact { keeps.sound with layoutTree := soundTree }
      · rw [keeps.others]

theorem keeps_runAll {start : Document} {edits : List Edit}
    (accepted : ∀ edit ∈ edits, ∀ patch ∈ edit.patches, patch.Accepted)
    (keeps : Keeps start document) : Keeps start (runAll document edits) := by
  induction edits generalizing document with
  | nil => exact keeps
  | cons edit rest inductionHypothesis =>
      obtain ⟨acceptedFirst, acceptedRest⟩ := List.forall_mem_cons.mp accepted
      exact inductionHypothesis acceptedRest (keeps_after keeps acceptedFirst)

/-- Validity is an invariant of editing. After every step of a run by accepted
patches, only repeated ids are reported about the document, its value is accepted
as the document itself, and nothing but the tree has changed. -/
theorem runAll_keeps_validity {value : Value} {start : Document} (ordered : value.Ordered)
    (opened : validate .lenient value = .ok start) (edits : List Edit)
    (accepted : ∀ edit ∈ edits, ∀ patch ∈ edit.patches, patch.Accepted) :
    ∀ done, done <+: edits →
      (∀ policy, ∀ violation ∈ (report policy (runAll start done).toValue).violations,
          violation.severity = .warning ∧ violation.rule = uniqueIdRule) ∧
        validate .lenient (runAll start done).toValue = .ok (runAll start done) ∧
        runAll start done = { start with layoutTree := (runAll start done).layoutTree } := by
  intro done isStart
  have valid := (validate_eq_ok_iff ordered).mp ⟨start, opened⟩
  obtain ⟨same, acceptedSame, -, sound⟩ := validate_of_valid ordered valid
  obtain rfl : same = start := Except.ok.inj (acceptedSame.symm.trans opened)
  have keeps : Keeps same (runAll same done) :=
    keeps_runAll (fun edit isMember => accepted edit (isStart.subset isMember)) ⟨sound, rfl⟩
  exact ⟨keeps.sound.warnings, keeps.sound.validate_toValue, keeps.others⟩

/-- A new text for the node called `n`. -/
def rewording : Value :=
  .object [("op", .string "update"), ("payload", .object [("text", .string "t")]),
    ("targetId", .string "n")]

/-- The removal of the node called `n`, which fails at the root. -/
def removal : Value :=
  .object [("op", .string "remove"), ("targetId", .string "n")]

theorem runAll_keeps_validity_twins :
    ∃ start edited, validate .lenient twins = .ok start ∧
      edited = runAll start [.apply (.update "n" (.ofText "t")), .applyInPlace (.remove "n")] ∧
      (∀ policy, ∀ violation ∈ (report policy edited.toValue).violations,
        violation.severity = .warning ∧ violation.rule = uniqueIdRule) ∧
      validate .lenient edited.toValue = .ok edited ∧
      edited = { start with layoutTree := edited.layoutTree } := by
  have orderedRewording : rewording.Ordered := by
    simp only [rewording, Value.Ascending, Value.Ordered, Value.OrderedMembers]
    decide
  have rewords : validatePatch rewording = .ok (.update "n" (.ofText "t")) := rfl
  have orderedRemoval : removal.Ordered := by
    simp only [removal, Value.Ascending, Value.Ordered, Value.OrderedMembers]
    decide
  have removes : validatePatch removal = .ok (.remove "n") := rfl
  have acceptedRewording := Patch.Accepted.alone orderedRewording rewords
  have acceptedRemoval := Patch.Accepted.alone orderedRemoval removes
  have isAccepted : (report .lenient twins).valid = true := by decide
  obtain ⟨start, opened⟩ := (validate_eq_ok_iff ordered_twins).mpr isAccepted
  have keeps := runAll_keeps_validity ordered_twins opened
    [.apply (.update "n" (.ofText "t")), .applyInPlace (.remove "n")]
    (by simp [patches, acceptedRewording, acceptedRemoval]) _ (List.prefix_refl _)
  exact ⟨start, _, opened, rfl, keeps⟩

end Edit

end Wireframe
