import Wireframe.Proofs.Check.Composition
import Wireframe.Proofs.Check.Gate
import Wireframe.Proofs.Patch.Insertion

/-!
Contract: insertions as data, and the child that they make.

Owns:
- the data of a node read as a payload, which spells that node;
- the data of an insertion, which is read where its payload is the data of a node;
- the child of the target that is made of the payload.

Does not own: which data is that of a node.
-/

namespace Wireframe

open Json Codec Check

/-! ### Members that may also be absent -/

namespace Codec.Field

section Absent

variable {α : Type} {name : String} {codec : Codec α} {presence : Presence α} {value : α}
  {members : List (String × Value)}

/-- A member that is found is found, too, where nothing stands for its absence. -/
theorem exists_find_optional (found : find ⟨name, codec, presence, []⟩ members = .found value)
    (notNull : (codec.decode .null).isOk = false) :
    ∃ carried, (optional name codec).find members = .found carried ∧
      (carried = some value ∨ carried = none ∧ presence.absent = some value) := by
  cases answers_of_find_eq_found found with
  | inl unanswered =>
      exact ⟨none, find_of_unanswered unanswered.1 rfl, Or.inr ⟨rfl, unanswered.2⟩⟩
  | inr answered =>
      obtain ⟨given, only, decodes⟩ := answered
      have present : given ≠ .null := by
        intro isNull
        rw [isNull] at decodes
        rw [decodes] at notNull
        exact Bool.noConfusion notNull
      refine ⟨some value, find_of_answered only ?_, Or.inl rfl⟩
      show codec.option.decode given = .ok (some value)
      rw [decode_option_of_ne_null present, decodes]
      rfl

theorem find_optional_of_needed (found : (needed name codec).find members = .found value)
    (notNull : (codec.decode .null).isOk = false) :
    (optional name codec).find members = .found (some value) := by
  obtain ⟨carried, foundToo, stands⟩ := exists_find_optional found notNull
  cases stands with
  | inl same => rw [foundToo, same]
  | inr default => exact absurd default.2 nofun

/-- What stands for the absence of the member makes up for it. -/
theorem exists_find_optional_getD {default : α}
    (found : find ⟨name, codec, presence, []⟩ members = .found value)
    (absent : presence.absent = some default) (notNull : (codec.decode .null).isOk = false) :
    ∃ carried, (optional name codec).find members = .found carried ∧
      carried.getD default = value := by
  obtain ⟨carried, foundToo, stands⟩ := exists_find_optional found notNull
  refine ⟨carried, foundToo, ?_⟩
  cases stands with
  | inl same => rw [same, Option.getD_some]
  | inr default =>
      rw [absent] at default
      rw [default.1, Option.getD_none]
      exact Option.some.inj default.2

end Absent

end Codec.Field

/-! ### A node read as a payload -/

namespace Payload

/-- The members of a node are those of a payload, and what the payload leaves to the
node that it is merged into is what an absent member stands for. -/
theorem exists_decode_of_members {members : List (String × Value)} {node : Node}
    (decodes : Node.codec.decode (.object members) = .ok node) :
    ∃ payload, codec.decode (.object members) = .ok payload ∧
      ∀ targetId, payload.toNode targetId = .ok node := by
  obtain ⟨⟨id, kind, name, role, text, placeholder, media, bindings, constraints, layout, style,
    state, events, children, ⟨⟩⟩, found, rfl⟩ := Node.exists_found_of_decode decodes
  simp only [Node.fields, Attributes.fieldsThen, Fields.find, Outcome.pair_eq_found] at found
  obtain ⟨foundId, foundKind, foundName, foundRole, foundText, foundPlaceholder, foundMedia,
    foundBindings, foundConstraints, foundLayout, foundStyle, foundState, foundEvents,
    foundChildren, -⟩ := found
  have carriesId := Field.find_optional_of_needed foundId rfl
  have carriesKind := Field.find_optional_of_needed foundKind rfl
  obtain ⟨someBindings, carriesBindings, isBindings⟩ :=
    Field.exists_find_optional_getD foundBindings rfl rfl
  obtain ⟨someLayout, carriesLayout, isLayout⟩ :=
    Field.exists_find_optional_getD foundLayout rfl rfl
  obtain ⟨someStyle, carriesStyle, isStyle⟩ :=
    Field.exists_find_optional_getD foundStyle rfl rfl
  obtain ⟨someEvents, carriesEvents, isEvents⟩ :=
    Field.exists_find_optional_getD foundEvents rfl rfl
  obtain ⟨someChildren, carriesChildren, isChildren⟩ :=
    Field.exists_find_optional_getD foundChildren rfl rfl
  refine ⟨⟨some id, some kind, name, role, text, placeholder, media, someBindings, constraints,
    someLayout, someStyle, state, someEvents, someChildren⟩, ?_, ?_⟩
  · show (Outcome.toExcept (Fields.find _ members)).map _ = _
    simp only [Fields.find, carriesId, carriesKind, foundName, foundRole, foundText,
      foundPlaceholder, foundMedia, carriesBindings, foundConstraints, carriesLayout,
      carriesStyle, foundState, carriesEvents, carriesChildren]
    rfl
  · intro targetId
    simp only [toNode, merge, Option.getD_some, Option.or_none, isBindings, isLayout, isStyle,
      isEvents, isChildren]
    rfl

end Payload

/-! ### What is checked -/

namespace Check

section Partial

variable {members : List (String × Value)} {path name : String} {rule : Rule}

theorem checkMember_optional_of_required
    (passed : checkMember (checkersOf nodeShape members) path (name, .required, rule) = []) :
    checkMember (checkersOf nodeShape members) path (name, .optional, rule) = [] := by
  obtain ⟨value, present⟩ := present_of_checkMember_required passed
  rw [checkMember_of_present (Or.inl rfl) present] at passed
  rw [checkMember_of_present (Or.inr rfl) present]
  exact passed

/-- The data of a node passes as that of a payload, of which less is required. -/
theorem check_node_true_of_false {value : Value}
    (passed : check nodeShape value (.node false) path = []) :
    check nodeShape value (.node true) path = [] := by
  cases value with
  | object members =>
      change checkMembers (nodeShape false) (checkersOf nodeShape members) path = [] at passed
      show checkMembers (nodeShape true) (checkersOf nodeShape members) path = []
      have passedId : checkMember (checkersOf nodeShape members) path
          ("id", .required, .text) = [] := checkMember_eq_nil rfl passed
      have passedKind : checkMember (checkersOf nodeShape members) path
          ("type", .required, .oneOf (Kind.all.map Kind.name)) = [] :=
        checkMember_eq_nil rfl passed
      rw [checkMembers, List.flatMap_eq_nil_iff] at passed ⊢
      intro member isMember
      rw [nodeShape, if_pos rfl, List.mem_cons, List.mem_cons] at isMember
      rcases isMember with rfl | rfl | other
      · exact checkMember_optional_of_required passedId
      · exact checkMember_optional_of_required passedKind
      · exact passed member (List.mem_cons_of_mem _ (List.mem_cons_of_mem _ other))
  | _ => exact absurd passed (wrongKind_ne_nil _ _ _)

end Partial

end Check

/-! ### An insertion as data -/

namespace Patch

/-- The members of an insertion whose payload is some data. Without a position, that
member is left out. -/
def insertionMembers (targetId : String) (payload : Value) (position : Option UInt64) :
    List (String × Value) :=
  [("op", .string Operation.insert.name), ("payload", payload)] ++
    (position.map fun index => ("position", Value.ofCount index)).toList ++
      [("targetId", .string targetId)]

/-- The data of an insertion, its keys in order. -/
def insertion (targetId : String) (payload : Value) (position : Option UInt64) : Value :=
  .object (insertionMembers targetId payload position)

section Insertion

variable {value : Value} {payload : Payload}

theorem violations_insertion (passed : violations (.node true) value = []) (targetId : String)
    (position : Option UInt64) :
    violations patchRule (insertion targetId value position) = [] := by
  show checkMembers _ (checkersOf nodeShape (insertionMembers targetId value position)) _ = []
  rw [checkMembers, List.flatMap_eq_nil_iff, List.forall_mem_cons, List.forall_mem_cons,
    List.forall_mem_cons, List.forall_mem_singleton]
  refine ⟨?target, ?operation, ?payload, ?position⟩
  case target =>
    have present : (insertionMembers targetId value position).lookup "targetId" =
        some (.string targetId) := by
      cases position <;> rfl
    exact checkMember_of_present (Or.inl rfl) present
  case operation =>
    have present : (insertionMembers targetId value position).lookup "op" =
        some (.string Operation.insert.name) := rfl
    exact checkMember_of_present (Or.inl rfl) present
  case payload =>
    have present : (insertionMembers targetId value position).lookup "payload" = some value := rfl
    have alone : check nodeShape value (.node true) rootPath = [] := passed
    have inPatch : check nodeShape value (.node true) (memberPath rootPath "payload") = [] := by
      rw [check_relocated, alone, List.map_nil]
    exact (checkMember_of_present (Or.inr rfl) present).trans inPatch
  case position =>
    cases position with
    | none => exact checkMember_optional_of_absent rfl
    | some index =>
        have present : (insertionMembers targetId value (some index)).lookup "position" =
            some (.ofCount index) := rfl
        have counts := (agrees_integer 0 "usize").passes index
          (memberPath rootPath "position") (Nat.zero_le _) (Nat.zero_le 0)
        exact (checkMember_of_present (Or.inr rfl) present).trans counts

theorem decode_insertion (decodes : Payload.codec.decode value = .ok payload)
    (targetId : String) (position : Option UInt64) :
    codec.decode (insertion targetId value position) =
      .ok ⟨targetId, .insert, some payload, position⟩ := by
  have foundTarget : (Field.needed "targetId" .string).find
      (insertionMembers targetId value position) = .found targetId := by
    cases position <;> exact Field.find_of_answered rfl rfl
  have foundOperation : (Field.needed "op" (.choice Operation.name Operation.all)).find
      (insertionMembers targetId value position) = .found .insert := by
    cases position <;> exact Field.find_of_answered rfl rfl
  have notNull : value ≠ .null := by
    rintro rfl
    exact absurd decodes nofun
  have foundPayload : (Field.optional "payload" Payload.codec).find
      (insertionMembers targetId value position) = .found (some payload) := by
    have carried : Payload.codec.option.decode value = .ok (some payload) := by
      rw [decode_option_of_ne_null notNull, decodes]
      rfl
    cases position <;> exact Field.find_of_answered rfl carried
  have foundPosition : (Field.optional "position" (.natural "usize")).find
      (insertionMembers targetId value position) = .found position := by
    cases position with
    | none => exact Field.find_of_unanswered rfl rfl
    | some index =>
        have restores := (agrees_integer 0 "usize").restores index (Nat.zero_le _) (Nat.zero_le 0)
        exact Field.find_of_answered rfl (congrArg (Except.map some) restores)
  show (Outcome.toExcept (Fields.find _ _)).map _ = _
  simp only [Fields.find, foundTarget, foundOperation, foundPayload, foundPosition]
  rfl

/-- What is accepted as a node is accepted as the payload of an insertion, too, and the
payload spells that node. -/
theorem exists_validatePatch_insertion {node : Node} (accepted : validateNode value = .ok node)
    (targetId : String) (position : Option UInt64) :
    ∃ payload,
      validatePatch (insertion targetId value position) =
        .ok ⟨targetId, .insert, some payload, position⟩ ∧
      payload.toNode targetId = .ok node := by
  obtain ⟨clean, decodes⟩ := validateShape_eq_ok_iff.mp accepted
  cases value with
  | object members =>
      obtain ⟨payload, decodesPayload, spells⟩ := Payload.exists_decode_of_members decodes
      refine ⟨payload, validateShape_eq_ok_iff.mpr ⟨?_, ?_⟩, spells targetId⟩
      · exact violations_insertion (check_node_true_of_false clean) targetId position
      · exact decode_insertion decodesPayload targetId position
  | _ => exact absurd clean (wrongKind_ne_nil _ _ _)

end Insertion

/-- An insertion makes of its payload the node that the payload spells: the one that its
data is accepted as, where the payload is such data, and the one that it was made of
otherwise. The node becomes a child of the first node that bears the id. -/
theorem insertion_makes_spelled_child (targetId : String) (position : Option UInt64) :
    (∀ value node, validateNode value = .ok node →
      ∃ patch, validatePatch (insertion targetId value position) = .ok patch ∧
        ∀ tree, (∃ other ∈ tree.flatten, other.id = targetId) →
          ∃ path edited, tree.FirstAt targetId path ∧ patch.apply tree = .ok edited ∧
            Node.GainsAt (position.getD 0).toNat node path tree edited) ∧
    ∀ node tree, (∃ other ∈ tree.flatten, other.id = targetId) →
      ∃ path edited, tree.FirstAt targetId path ∧
        (insert targetId node position).apply tree = .ok edited ∧
        Node.GainsAt (position.getD 0).toNat node path tree edited := by
  constructor
  · intro value node accepted
    obtain ⟨payload, validates, spells⟩ :=
      exists_validatePatch_insertion accepted targetId position
    refine ⟨_, validates, ?_⟩
    intro tree present
    obtain ⟨path, first⟩ := Node.exists_firstAt present
    obtain ⟨edited, applied, gains⟩ := exists_gainsAt spells position first
    exact ⟨path, edited, first, applied, gains⟩
  · intro node tree present
    obtain ⟨path, first⟩ := Node.exists_firstAt present
    obtain ⟨edited, applied, gains⟩ := exists_gainsAt_insert node position first
    exact ⟨path, edited, first, applied, gains⟩

/-- The data of the triplet, without what it leaves to the defaults. -/
def tripletData : Value :=
  .object [("children", .array [.object [("id", .string "twin"), ("type", .string "text")]]),
    ("id", .string "new"), ("type", .string "card")]

/-- Read of its data or made for it, the insertion puts the triplet among the twins. -/
theorem insertion_makes_spelled_child_triplet :
    validateNode tripletData = .ok triplet ∧
      (∃ patch edited, validatePatch (insertion "page" tripletData (some 1)) = .ok patch ∧
        patch.apply twins = .ok edited ∧ Node.GainsAt 1 triplet [] twins edited) ∧
      ∃ edited, (insert "page" triplet (some 1)).apply twins = .ok edited ∧
        Node.GainsAt 1 triplet [] twins edited := by
  have accepted : validateNode tripletData = .ok triplet := rfl
  have present : ∃ other ∈ twins.flatten, other.id = "page" := by
    refine ⟨twins, ?_, rfl⟩
    simp [twins, Node.flatten]
  have atRoot : twins.FirstAt "page" [] := Node.locate?_eq_some_iff.mp rfl
  obtain ⟨spelled, made⟩ := insertion_makes_spelled_child "page" (some 1)
  obtain ⟨patch, validates, inserts⟩ := spelled tripletData triplet accepted
  obtain ⟨path, edited, first, applied, gains⟩ := inserts twins present
  obtain ⟨pathToo, editedToo, firstToo, appliedToo, gainsToo⟩ := made triplet twins present
  rw [first.unique atRoot] at gains
  rw [firstToo.unique atRoot] at gainsToo
  exact ⟨accepted, ⟨patch, edited, validates, applied, gains⟩, editedToo, appliedToo, gainsToo⟩

end Patch

end Wireframe
