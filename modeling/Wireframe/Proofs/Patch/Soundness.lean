import Wireframe.Proofs.Check.Gate
import Wireframe.Proofs.Node.Paths
import Wireframe.Proofs.Patch.Steps

/-!
Contract: edits by accepted patches keep a tree sound.

Owns:
- soundness of what validation makes of a patch;
- soundness of a merged node, of an inserted one, and of a tree after a change at
  a path;
- soundness of a tree after one edit and after a row of edits.
-/

namespace Wireframe

open Json Codec Check

/-! ### Accepted patches -/

namespace Patch

/-- A patch that was accepted on its own or in a list of patches. -/
inductive Accepted (patch : Patch) : Prop where
  | alone {value : Value} (ordered : value.Ordered)
      (accepted : validatePatch value = .ok patch)
  | listed {value : Value} {patches : List Patch} (ordered : value.Ordered)
      (accepted : validatePatches value = .ok patches) (isMember : patch ∈ patches)

theorem sound_of_validatePatch {value : Value} {patch : Patch} (ordered : value.Ordered)
    (accepted : validatePatch value = .ok patch) : patch.Sound := by
  obtain ⟨clean, decodesAccepted⟩ := validateShape_eq_ok_iff.mp accepted
  obtain ⟨same, decodes, sound⟩ := patch_decodes ordered clean
  rw [decodesAccepted] at decodes
  rwa [Except.ok.inj decodes]

theorem sound_of_validatePatches {value : Value} {patches : List Patch}
    (ordered : value.Ordered) (accepted : validatePatches value = .ok patches) :
    ∀ patch ∈ patches, patch.Sound := by
  unfold validatePatches at accepted
  split at accepted
  · rename_i clean
    obtain ⟨same, decodes, sound⟩ := patches_decode ordered clean
    rw [decoded_eq_ok_iff.mp accepted] at decodes
    rwa [Except.ok.inj decodes]
  · exact absurd accepted nofun

theorem Accepted.sound {patch : Patch} (accepted : patch.Accepted) : patch.Sound := by
  cases accepted with
  | alone ordered accepted => exact sound_of_validatePatch ordered accepted
  | listed ordered accepted isMember =>
      exact sound_of_validatePatches ordered accepted patch isMember

end Patch

/-! ### Nodes -/

namespace Payload

/-- What is carried or else kept has a property that both have. -/
theorem forall_mem_or {α : Type} (property : α → Prop) {carried kept : Option α}
    (carriedHolds : ∀ value ∈ carried, property value)
    (keptHolds : ∀ value ∈ kept, property value) :
    ∀ value ∈ carried.or kept, property value := by
  cases carried with
  | none => exact keptHolds
  | some value => exact carriedHolds

theorem getD_of_forall_mem {α : Type} (property : α → Prop) {carried : Option α} {kept : α}
    (carriedHolds : ∀ value ∈ carried, property value) (keptHolds : property kept) :
    property (carried.getD kept) := by
  cases carried with
  | none => exact keptHolds
  | some value => exact carriedHolds value rfl

variable {payload : Payload}

theorem sound_merge (sound : payload.Sound) {node : Node} (soundNode : node.Sound) :
    (payload.merge node).Sound := by
  obtain ⟨attributes, children⟩ := node
  rw [Node.sound_mk] at soundNode
  obtain ⟨soundAttributes, soundChildren⟩ := soundNode
  rw [merge, Node.sound_mk]
  constructor
  · exact {
      bindings := getD_of_forall_mem Value.Ascending sound.bindings soundAttributes.bindings
      constraints := forall_mem_or Constraints.Sound sound.constraints
        soundAttributes.constraints
      layout := getD_of_forall_mem Layout.Sound sound.layout soundAttributes.layout
      state := forall_mem_or State.Sound sound.state soundAttributes.state
      events := getD_of_forall_mem (fun events : List Event => ∀ event ∈ events, event.Sound) sound.events
        soundAttributes.events }
  · exact getD_of_forall_mem (fun children : List Node => ∀ child ∈ children, child.Sound) sound.children
      soundChildren

/-- A node that has nothing but an id and a kind is sound. -/
theorem sound_bare (id : String) (kind : Kind) : (Node.mk { id, kind } []).Sound := by
  rw [Node.sound_mk]
  constructor
  · exact {
      bindings := List.Pairwise.nil
      constraints := fun _ impossible => absurd impossible (Option.not_mem_none _)
      layout := ⟨nofun, nofun⟩
      state := fun _ impossible => absurd impossible (Option.not_mem_none _)
      events := List.forall_mem_nil _ }
  · exact List.forall_mem_nil _

theorem sound_toNode (sound : payload.Sound) {targetId : String} {node : Node}
    (spells : payload.toNode targetId = .ok node) : node.Sound := by
  unfold toNode at spells
  split at spells
  · exact absurd spells nofun
  · exact absurd spells nofun
  · rw [← Except.ok.inj spells]
    exact sound_merge sound (sound_bare _ _)

end Payload

namespace Node

theorem sound_insertChild {node child : Node} (sound : node.Sound) (soundChild : child.Sound)
    (position : Nat) : (insertChild position child node).Sound := by
  obtain ⟨attributes, children⟩ := node
  rw [sound_mk] at sound
  rw [insertChild, sound_mk]
  refine ⟨sound.1, fun other isMember => ?_⟩
  rw [List.mem_insertIdx (Nat.min_le_right position children.length)] at isMember
  rcases isMember with rfl | isOld
  · exact soundChild
  · exact sound.2 other isOld

theorem sound_removeChild {node : Node} (sound : node.Sound) (index : Nat) :
    (removeChild index node).Sound := by
  obtain ⟨attributes, children⟩ := node
  rw [sound_mk] at sound
  rw [removeChild, sound_mk]
  exact ⟨sound.1, fun other isMember => sound.2 other (List.mem_of_mem_eraseIdx isMember)⟩

/-- A change that keeps nodes sound keeps trees sound wherever it is made. -/
theorem sound_modifyAt {change : Node → Node}
    (keeps : ∀ node : Node, node.Sound → (change node).Sound) (path : List Nat) {tree : Node}
    (sound : tree.Sound) : (tree.modifyAt change path).Sound := by
  induction path generalizing tree with
  | nil =>
      rw [modifyAt]
      exact keeps tree sound
  | cons index path inductionHypothesis =>
      obtain ⟨attributes, children⟩ := tree
      rw [sound_mk] at sound
      rw [modifyAt, sound_mk]
      refine ⟨sound.1, fun child isMember => ?_⟩
      obtain ⟨place, inside, rfl⟩ := List.mem_iff_getElem.mp isMember
      rw [List.getElem_modify]
      rw [List.length_modify] at inside
      split
      · exact inductionHypothesis (sound.2 _ (List.getElem_mem inside))
      · exact sound.2 _ (List.getElem_mem inside)

end Node

/-! ### Trees -/

namespace Patch

variable {patch : Patch} {tree edited : Node}

theorem sound_editAt (sound : patch.Sound) (soundTree : tree.Sound) {path : List Nat}
    (applied : patch.editAt path tree = .ok edited) : edited.Sound := by
  cases editedAt_of_editAt applied with
  | nothing => exact soundTree
  | merge merges carried =>
      have soundPayload := sound _ carried
      exact Node.sound_modifyAt (fun _ soundNode => Payload.sound_merge soundPayload soundNode)
        path soundTree
  | insert inserts carried spelled =>
      have soundChild := Payload.sound_toNode (sound _ carried) spelled
      exact Node.sound_modifyAt
        (fun _ soundNode => Node.sound_insertChild soundNode soundChild _) path soundTree
  | remove removes =>
      exact Node.sound_modifyAt (fun _ soundNode => Node.sound_removeChild soundNode _) _
        soundTree

theorem sound_applyHit (sound : patch.Sound) (soundTree : tree.Sound) {hit : Bool}
    (applied : patch.applyHit tree = .ok (edited, hit)) : edited.Sound := by
  rcases applyHit_cases applied with ⟨-, rfl, -⟩ | ⟨path, -, -, there⟩
  · exact soundTree
  · exact sound_editAt sound soundTree there

theorem sound_apply (sound : patch.Sound) (soundTree : tree.Sound)
    (applied : patch.apply tree = .ok edited) : edited.Sound := by
  obtain ⟨hit, appliedInPlace⟩ := exists_applyHit_of_apply applied
  exact sound_applyHit sound soundTree appliedInPlace

theorem sound_applyAll {patches : List Patch} (sound : ∀ patch ∈ patches, patch.Sound)
    (soundTree : tree.Sound) (applied : applyAll patches tree = .ok edited) : edited.Sound := by
  induction patches generalizing tree with
  | nil => exact Except.ok.inj applied ▸ soundTree
  | cons patch rest inductionHypothesis =>
      obtain ⟨soundFirst, soundRest⟩ := List.forall_mem_cons.mp sound
      obtain ⟨next, first, others⟩ := applyAll_cons applied
      exact inductionHypothesis soundRest (sound_apply soundFirst soundTree first) others

end Patch

end Wireframe
