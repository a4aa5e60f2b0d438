import Wireframe.Proofs.Document.WellFormed

/-!
Contract: patches as data, read back.

Owns:
- `Patch.Issued`, how callers come by patches: from accepted data, or by making them of
  validated nodes and of texts;
- the data of an issued patch, which is accepted as that patch, alone and in a list;
- the members of a payload as data, which are just those that it carries.

Does not own: soundness of what is accepted.
-/

namespace Wireframe

open Json Codec Check

/-! ### Validated nodes -/

namespace Node

/-- A node that was accepted, or that stands in an accepted tree. -/
inductive Validated (node : Node) : Prop
  | inNode {value : Value} {root : Node} (ordered : value.Ordered)
      (accepted : validateNode value = .ok root) (stands : node ∈ root.flatten)
  | inDocument {policy : Policy} {value : Value} {document : Document} (ordered : value.Ordered)
      (accepted : validate policy value = .ok document)
      (stands : node ∈ document.layoutTree.flatten)

theorem sound_of_mem_flatten {tree : Node} (sound : tree.Sound) :
    ∀ node ∈ tree.flatten, node.Sound := by
  induction tree using Node.induction with
  | mk attributes children inductionHypothesis =>
      rw [forall_mem_flatten_mk]
      refine ⟨sound, fun child isChild => inductionHypothesis child isChild ?_⟩
      exact ((sound_mk attributes children).mp sound).2 child isChild

theorem sound_of_validateNode {value : Value} {node : Node} (ordered : value.Ordered)
    (accepted : validateNode value = .ok node) : node.Sound := by
  obtain ⟨clean, decodesAccepted⟩ := validateShape_eq_ok_iff.mp accepted
  obtain ⟨same, decodes, sound⟩ := node_decodes ordered clean
  rw [decodesAccepted] at decodes
  rwa [Except.ok.inj decodes]

theorem Validated.sound {node : Node} (validated : node.Validated) : node.Sound := by
  cases validated with
  | inNode ordered accepted stands =>
      exact sound_of_mem_flatten (sound_of_validateNode ordered accepted) node stands
  | inDocument ordered accepted stands =>
      have soundTree := (sound_of_validate ordered accepted).2.layoutTree
      exact sound_of_mem_flatten soundTree node stands

end Node

/-! ### Members that may be absent -/

namespace Codec.Fields

/-- The names of the members, and whether each of them is written. -/
def carried {γ : Type} : Fields γ → γ → List (String × Bool)
  | .nil, _ => []
  | .cons head tail, (value, values) =>
      (head.name, head.presence.isWritten value) :: tail.carried values

theorem Written.isSome_find {γ : Type} {fields : Fields γ} {values : γ}
    {find : String → Option Value} (written : fields.Written values find) :
    ∀ member ∈ fields.carried values, (find member.1).isSome = member.2 := by
  induction fields with
  | nil => exact List.forall_mem_nil _
  | cons head tail inductionHypothesis =>
      obtain ⟨value, values⟩ := values
      obtain ⟨⟨found, -⟩, others⟩ := written
      refine List.forall_mem_cons.mpr ⟨?_, inductionHypothesis others⟩
      show (find head.name).isSome = head.presence.isWritten value
      rw [found]
      cases head.presence.isWritten value <;> rfl

/-- The data of a record shows its members as they are written. -/
theorem exists_written_record {α γ : Type} {label : String} {fields : Fields γ} {build : γ → α}
    {split : α → γ} (distinct : fields.keys.Nodup) (value : α) :
    ∃ members, ((record label fields build split).encode value).sortKeys = .object members ∧
      fields.Written (split value) fun key => members.lookup key := by
  obtain ⟨members, isObject, -, written⟩ := fields.written_encode (split value) distinct
  exact ⟨members, isObject, written⟩

end Codec.Fields

/-! ### Issued patches -/

namespace Payload

/-- The members of a payload, and whether it carries them. One that is carried may be
empty. -/
def carried (payload : Payload) : List (String × Bool) := [
  ("id", payload.id.isSome), ("type", payload.kind.isSome), ("name", payload.name.isSome),
  ("role", payload.role.isSome), ("text", payload.text.isSome),
  ("placeholder", payload.placeholder.isSome), ("media", payload.media.isSome),
  ("bindings", payload.bindings.isSome), ("constraints", payload.constraints.isSome),
  ("layout", payload.layout.isSome), ("style", payload.style.isSome),
  ("state", payload.state.isSome), ("events", payload.events.isSome),
  ("children", payload.children.isSome)]

/-- A member is in the data of a payload just where the payload carries it. -/
theorem exists_members (payload : Payload) :
    ∃ members, (codec.encode payload).sortKeys = .object members ∧
      ∀ member ∈ payload.carried, (members.lookup member.1).isSome = member.2 := by
  obtain ⟨members, isObject, written⟩ : ∃ members,
      (codec.encode payload).sortKeys = .object members ∧ Fields.Written _ _ _ :=
    Fields.exists_written_record (by decide) payload
  have found := written.isSome_find
  simp only [Fields.carried, Field.optional, Presence.isWritten, Option.not_isNone] at found
  exact ⟨members, isObject, found⟩

/-- A payload that is made of a validated node, or of a text alone. -/
inductive Made : Payload → Prop
  | ofNode {node : Node} (validated : node.Validated) : Made (.ofNode node)
  | ofText (text : String) : Made (.ofText text)

theorem sound_ofNode {node : Node} (sound : node.Sound) : (ofNode node).Sound := by
  obtain ⟨attributes, children⟩ := node
  obtain ⟨soundAttributes, soundChildren⟩ := (Node.sound_mk attributes children).mp sound
  exact {
    bindings := fun _ carried => Option.some.inj carried ▸ soundAttributes.bindings
    constraints := soundAttributes.constraints
    layout := fun _ carried => Option.some.inj carried ▸ soundAttributes.layout
    state := soundAttributes.state
    events := fun _ carried => Option.some.inj carried ▸ soundAttributes.events
    children := fun _ carried => Option.some.inj carried ▸ soundChildren }

theorem Made.sound {payload : Payload} (made : payload.Made) : payload.Sound := by
  cases made with
  | ofNode validated => exact sound_ofNode validated.sound
  | ofText text =>
      have absent {α : Type} (property : α → Prop) : ∀ value ∈ (none : Option α), property value :=
        fun value isMember => absurd isMember (Option.not_mem_none value)
      exact ⟨absent _, absent _, absent _, absent _, absent _, absent _⟩

end Payload

namespace Patch

/-- A patch that was accepted, or that one of the four ways to make a patch makes. -/
inductive Issued : Patch → Prop
  | accepted {patch : Patch} (accepted : patch.Accepted) : Issued patch
  | update (targetId : String) {payload : Payload} (made : payload.Made) :
      Issued (.update targetId payload)
  | replace (targetId : String) {payload : Payload} (made : payload.Made) :
      Issued (.replace targetId payload)
  | insert (targetId : String) {child : Node} (validated : child.Validated)
      (position : Option UInt64) : Issued (.insert targetId child position)
  | remove (targetId : String) : Issued (.remove targetId)

theorem sound_of_payload {patch : Patch} {payload : Payload} (carries : patch.payload = some payload)
    (sound : payload.Sound) : patch.Sound := by
  intro carried isCarried
  rw [carries] at isCarried
  exact Option.some.inj isCarried ▸ sound

theorem Issued.sound {patch : Patch} (issued : patch.Issued) : patch.Sound := by
  cases issued with
  | accepted accepted => exact accepted.sound
  | update targetId made => exact sound_of_payload rfl made.sound
  | replace targetId made => exact sound_of_payload rfl made.sound
  | insert targetId validated position =>
      exact sound_of_payload rfl (Payload.sound_ofNode validated.sound)
  | remove targetId => exact fun payload isMember => absurd isMember (Option.not_mem_none payload)

/-! ### Patches as data -/

/-- The value of a patch with every object's keys in order. -/
def toValue (patch : Patch) : Value :=
  (codec.encode patch).sortKeys

theorem Sound.validatePatch_toValue {patch : Patch} (sound : patch.Sound) :
    validatePatch patch.toValue = .ok patch := by
  have agrees := Patch.agrees (codec.encode patch).depth
  have shallow : (codec.encode patch).depth ≤ 2 * (codec.encode patch).depth + 1 := by omega
  exact validateShape_eq_ok_iff.mpr
    ⟨agrees.passes patch rootPath sound shallow, agrees.restores patch sound shallow⟩

theorem validatePatches_toValue {patches : List Patch} (sound : ∀ patch ∈ patches, patch.Sound) :
    validatePatches (.array (patches.map toValue)) = .ok patches := by
  let written := (Codec.list codec).encode patches
  have isValue : written.sortKeys = .array (patches.map toValue) := by
    change (Value.array (patches.map codec.encode)).sortKeys = _
    rw [Value.sortKeys_array, List.map_map]
    rfl
  have agrees : Agrees (2 * written.depth + 2) (.list patchRule) (.list codec)
      fun patches => ∀ patch ∈ patches, patch.Sound := by
    apply agrees_list
    intro inner outer
    obtain rfl : inner = 2 * written.depth + 1 := by omega
    exact Patch.agrees written.depth
  have shallow : written.depth ≤ 2 * written.depth + 2 := by omega
  have clean := agrees.passes patches rootPath sound shallow
  have decodes := agrees.restores patches sound shallow
  rw [isValue] at clean decodes
  unfold validatePatches
  rw [show patchesViolations (.array (patches.map toValue)) = [] from clean]
  exact decoded_eq_ok_iff.mpr decodes

theorem exists_payload_member {patch : Patch} {payload : Payload}
    (carries : patch.payload = some payload) :
    ∃ members, patch.toValue = .object members ∧
      members.lookup "payload" = some (Payload.codec.encode payload).sortKeys := by
  obtain ⟨members, isObject, written⟩ : ∃ members,
      patch.toValue = .object members ∧ Fields.Written _ _ _ :=
    Fields.exists_written_record (by decide) patch
  obtain ⟨-, -, ⟨found, -⟩, -⟩ := written
  rw [carries] at found
  exact ⟨members, isObject, found⟩

/-- Patches survive their data: what an issued patch is encoded to is accepted as that
patch, and so is a list of them. In the data of a payload a member is there just where
the payload carries it, empty or not. -/
theorem wire_round_trip :
    (∀ patch : Patch, patch.Issued → validatePatch patch.toValue = .ok patch) ∧
      (∀ patches : List Patch, (∀ patch ∈ patches, patch.Issued) →
        validatePatches (.array (patches.map toValue)) = .ok patches) ∧
      ∀ (patch : Patch) (payload : Payload), patch.payload = some payload →
        ∃ members inside, patch.toValue = .object members ∧
          members.lookup "payload" = some (.object inside) ∧
          ∀ member ∈ payload.carried, (inside.lookup member.1).isSome = member.2 := by
  refine ⟨fun patch issued => issued.sound.validatePatch_toValue, ?_, ?_⟩
  · intro patches issued
    exact validatePatches_toValue fun patch isMember => (issued patch isMember).sound
  · intro patch payload carries
    obtain ⟨members, isObject, isPayload⟩ := exists_payload_member carries
    obtain ⟨inside, isInside, found⟩ := payload.exists_members
    exact ⟨members, inside, isObject, isPayload.trans (congrArg some isInside), found⟩

/-- The data of a patch that empties its target, and carries nothing else. -/
def emptyingData : Value :=
  .object [("op", .string "update"),
    ("payload", .object [("bindings", .object []), ("children", .array []), ("events", .array [])]),
    ("targetId", .string "n")]

def emptying : Patch :=
  .update "n" { bindings := some [], events := some [], children := some [] }

def leafData : Value :=
  .object [("id", .string "leaf"), ("type", .string "text")]

def leaf : Node :=
  .mk { id := "leaf", kind := .text } []

/-- What is emptied stays emptied, what is left alone stays so, and a child that is made of
a node without members is one. -/
theorem wire_round_trip_emptying :
    validatePatch emptyingData = .ok emptying ∧ validateNode leafData = .ok leaf ∧
      validatePatch emptying.toValue = .ok emptying ∧
      validatePatches (.array [emptying.toValue, (insert "n" leaf (some 1)).toValue]) =
        .ok [emptying, insert "n" leaf (some 1)] ∧
      ∃ members inside, emptying.toValue = .object members ∧
        members.lookup "payload" = some (.object inside) ∧
        (inside.lookup "children").isSome = true ∧ (inside.lookup "text").isSome = false := by
  have orderedPatch : emptyingData.Ordered := by
    simp only [emptyingData, Value.Ascending, Value.Ordered, Value.OrderedMembers,
      Value.OrderedItems]
    decide
  have orderedNode : leafData.Ordered := by
    simp only [leafData, Value.Ascending, Value.Ordered, Value.OrderedMembers]
    decide
  have acceptsPatch : validatePatch emptyingData = .ok emptying := rfl
  have acceptsNode : validateNode leafData = .ok leaf := rfl
  have issued : emptying.Issued := .accepted (.alone orderedPatch acceptsPatch)
  have validated : leaf.Validated := .inNode orderedNode acceptsNode List.mem_cons_self
  obtain ⟨alone, listed, present⟩ := wire_round_trip
  have both : ∀ patch ∈ [emptying, insert "n" leaf (some 1)], patch.Issued :=
    List.forall_mem_cons.mpr
      ⟨issued, List.forall_mem_singleton.mpr (.insert "n" validated (some 1))⟩
  obtain ⟨members, inside, isObject, isPayload, found⟩ := present emptying _ rfl
  exact ⟨acceptsPatch, acceptsNode, alone emptying issued, listed _ both, members, inside,
    isObject, isPayload, found ("children", true) (by decide), found ("text", false) (by decide)⟩

end Patch

end Wireframe
