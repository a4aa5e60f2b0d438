import Wireframe.Digest.Fingerprint
import Wireframe.Proofs.Check.Gate
import Wireframe.Proofs.Codec.Equality
import Wireframe.Proofs.Digest.Collision
import Wireframe.Proofs.Json.Compact

/-!
Contract: what equal documents have in common.

Owns:
- the codecs of documents and of their parts respect equality;
- equal documents have one canonical text exactly where the signs of their zeros
  agree, and then one fingerprint;
- two accepted documents that are equal and have different fingerprints.

Equality compares numbers numerically, while text tells the two zeros apart.
-/

namespace Wireframe

open Json Codec Check Digest

deriving instance LawfulBEq for Media, Metadata

/-! ### Parts of nodes -/

theorem Constraints.respects : Constraints.codec.Respects := by
  apply respects_record
  · rintro ⟨⟩ ⟨⟩ equal
    change (_ && _) = true at equal
    simpa only [beq_pair_iff, Bool.and_eq_true, BEq.rfl, and_true] using equal
  · exact .cons respects_double.optional <|
      .cons respects_double.optional <|
      .cons respects_double.optional <|
      .cons respects_double.optional <|
      .cons (respects_of_lawful _).optional <|
      .cons (respects_of_lawful _).optional <|
      .cons respects_double.optional <|
      .cons respects_double.optional <|
      .cons respects_double.optional .nil

theorem Layout.respects : Layout.codec.Respects := by
  apply respects_record
  · rintro ⟨⟩ ⟨⟩ equal
    change (_ && _) = true at equal
    simpa only [beq_pair_iff, Bool.and_eq_true, BEq.rfl, and_true] using equal
  · exact .cons (respects_of_lawful _).optional <|
      .cons respects_double.optional <|
      .cons respects_double.optional <|
      .cons respects_double.optional <|
      .cons respects_double.optional <|
      .cons respects_double.quad.optional <|
      .cons respects_double.quad.optional <|
      .cons respects_double.optional <|
      .cons respects_double.optional <|
      .cons respects_double.optional <|
      .cons (respects_of_lawful _).optional <|
      .cons (respects_of_lawful _).optional .nil

theorem Border.respects : Border.codec.Respects := by
  apply respects_record
  · rintro ⟨⟩ ⟨⟩ equal
    change (_ && _) = true at equal
    simpa only [beq_pair_iff, Bool.and_eq_true, BEq.rfl, and_true] using equal
  · exact .cons (respects_of_lawful _).optional <|
      .cons respects_double.optional <|
      .cons respects_double.optional <|
      .cons (respects_of_lawful _).optional .nil

theorem Typography.respects : Typography.codec.Respects := by
  apply respects_record
  · rintro ⟨⟩ ⟨⟩ equal
    change (_ && _) = true at equal
    simpa only [beq_pair_iff, Bool.and_eq_true, BEq.rfl, and_true] using equal
  · exact .cons (respects_of_lawful _).optional <|
      .cons respects_double.optional <|
      .cons (respects_of_lawful _).optional <|
      .cons respects_double.optional <|
      .cons respects_double.optional <|
      .cons (respects_of_lawful _).optional .nil

theorem Style.respects : Style.codec.Respects := by
  apply respects_record
  · rintro ⟨⟩ ⟨⟩ equal
    change (_ && _) = true at equal
    simpa only [beq_pair_iff, Bool.and_eq_true, BEq.rfl, and_true] using equal
  · exact .cons (respects_of_lawful _).optional <|
      .cons (respects_of_lawful _).optional <|
      .cons (respects_of_lawful _).optional <|
      .cons (respects_of_lawful _).optional <|
      .cons (respects_of_lawful _).optional <|
      .cons Border.respects.optional <|
      .cons (respects_of_lawful _).optional <|
      .cons Typography.respects.optional .nil

theorem State.respects : State.codec.Respects := by
  apply respects_record
  · rintro ⟨⟩ ⟨⟩ equal
    change (_ && _) = true at equal
    simpa only [beq_pair_iff, Bool.and_eq_true, BEq.rfl, and_true] using equal
  · exact .cons (respects_of_lawful _).optional <|
      .cons respects_json.optional <|
      .cons (respects_of_lawful _).unlessEmpty .nil

theorem Action.respects : Action.codec.Respects := by
  apply respects_record
  · rintro ⟨⟩ ⟨⟩ equal
    change (_ && _) = true at equal
    simpa only [beq_pair_iff, Bool.and_eq_true, BEq.rfl, and_true] using equal
  · exact .cons (respects_of_lawful _).needed <|
      .cons respects_jsonObject.optional .nil

theorem Event.respects : Event.codec.Respects := by
  apply respects_record
  · rintro ⟨⟩ ⟨⟩ equal
    change (_ && _) = true at equal
    simpa only [beq_pair_iff, Bool.and_eq_true, BEq.rfl, and_true] using equal
  · exact .cons (respects_of_lawful _).needed <|
      .cons (respects_of_lawful _).needed <|
      .cons Action.respects.needed <|
      .cons (respects_of_lawful _).optional .nil

/-! ### Nodes -/

theorem Attributes.fields_respects : Attributes.fields.Respects :=
  .cons (respects_of_lawful _).needed <|
  .cons (respects_of_lawful _).needed <|
  .cons (respects_of_lawful _).optional <|
  .cons (respects_of_lawful _).optional <|
  .cons (respects_of_lawful _).optional <|
  .cons (respects_of_lawful _).optional <|
  .cons (respects_of_lawful _).optional <|
  .cons (respects_of_lawful _).unlessEmpty <|
  .cons Constraints.respects.optional <|
  .cons (Layout.respects.defaulting _) <|
  .cons (Style.respects.defaulting _) <|
  .cons State.respects.optional <|
  .cons (Event.respects.list.defaulting _) .nil

theorem Attributes.split_beq {left right : Attributes} (equal : (left == right) = true) :
    (left.split == right.split) = true := by
  cases left
  cases right
  change (_ && _) = true at equal
  simpa only [Attributes.split, beq_pair_iff, Bool.and_eq_true, BEq.rfl, and_true] using equal

namespace Node

theorem equalAll_iff {nodes others : List Node} : equalAll nodes others = true ↔
    List.Forall₂ (fun node other => node.equal other = true) nodes others := by
  induction nodes generalizing others with
  | nil => cases others <;> simp [equalAll, List.forall₂_nil_left_iff]
  | cons node nodes inductionHypothesis =>
      cases others with
      | nil => simp [equalAll, List.forall₂_nil_right_iff]
      | cons other others =>
          rw [equalAll, Bool.and_eq_true, inductionHypothesis, List.forall₂_cons]

theorem respects : Node.codec.Respects := by
  intro left right equal
  induction left using Node.induction generalizing right with
  | mk attributes children inductionHypothesis =>
      obtain ⟨otherAttributes, otherChildren⟩ := right
      change (_ && _) = true at equal
      obtain ⟨equalAttributes, equalChildren⟩ := Bool.and_eq_true_iff.mp equal
      have members := Attributes.fields_respects _ _ (Attributes.split_beq equalAttributes)
      have parts := (List.forall₂_and_left children otherChildren).mpr
        ⟨inductionHypothesis, equalAll_iff.mp equalChildren⟩
      have items : (Value.array (encodeAll children)).equal (.array (encodeAll otherChildren)) =
          true := by
        rw [encodeAll_eq_map, encodeAll_eq_map]
        refine Value.equalItems_iff.mpr ?_
        rw [List.forall₂_map_left_iff, List.forall₂_map_right_iff]
        exact parts.imp fun _ _ part => part.1 _ part.2
      refine Value.equalMembers_iff.mpr ?_
      exact List.rel_append members (.cons ⟨rfl, items⟩ .nil)

end Node

/-! ### Documents -/

theorem TypeTokens.respects : TypeTokens.codec.Respects := by
  apply respects_record
  · rintro ⟨⟩ ⟨⟩ equal
    change (_ && _) = true at equal
    simpa only [beq_pair_iff, Bool.and_eq_true, BEq.rfl, and_true] using equal
  · exact .cons ((respects_of_lawful _).defaulting _) <|
      .cons (respects_double.dict.defaulting _) .nil

theorem Tokens.respects : Tokens.codec.Respects := by
  apply respects_record
  · rintro ⟨⟩ ⟨⟩ equal
    change (_ && _) = true at equal
    simpa only [beq_pair_iff, Bool.and_eq_true, BEq.rfl, and_true] using equal
  · exact .cons ((respects_of_lawful _).defaulting _) <|
      .cons (respects_double.dict.defaulting _) <|
      .cons (respects_double.dict.defaulting _) <|
      .cons (TypeTokens.respects.defaulting _) .nil

theorem Theme.respects : Theme.codec.Respects := by
  apply respects_record
  · rintro ⟨⟩ ⟨⟩ equal
    change (_ && _) = true at equal
    simpa only [beq_pair_iff, Bool.and_eq_true, BEq.rfl, and_true] using equal
  · exact .cons ((respects_of_lawful _).defaulting _) <|
      .cons ((respects_of_lawful _).defaulting _) <|
      .cons (Tokens.respects.defaulting _) .nil

theorem Asset.respects : Asset.codec.Respects := by
  apply respects_record
  · rintro ⟨⟩ ⟨⟩ equal
    change (_ && _) = true at equal
    simpa only [beq_pair_iff, Bool.and_eq_true, BEq.rfl, and_true] using equal
  · exact .cons (respects_of_lawful _).needed <|
      .cons (respects_of_lawful _).needed <|
      .cons (respects_of_lawful _).needed <|
      .cons respects_jsonObject.optional .nil

theorem DataSource.respects : DataSource.codec.Respects := by
  apply respects_record
  · rintro ⟨⟩ ⟨⟩ equal
    change (_ && _) = true at equal
    simpa only [beq_pair_iff, Bool.and_eq_true, BEq.rfl, and_true] using equal
  · exact .cons (respects_of_lawful _).needed <|
      .cons (respects_of_lawful _).needed <|
      .cons (respects_of_lawful _).needed <|
      .cons respects_jsonObject.needed <|
      .cons respects_json.optional .nil

namespace Document

theorem respects : Document.codec.Respects := by
  apply respects_record
  · rintro ⟨⟩ ⟨⟩ equal
    change (_ && _) = true at equal
    simp only [Bool.and_eq_true, and_assoc] at equal
    simp only [beq_pair_iff, BEq.rfl, and_true]
    exact equal
  · exact .cons (respects_of_lawful _).needed <|
      .cons ((respects_of_lawful _).defaulting _) <|
      .cons ((respects_of_lawful _).defaulting _) <|
      .cons ((respects_of_lawful _).defaulting _) <|
      .cons ((respects_of_lawful _).defaulting _) <|
      .cons (respects_of_lawful _).optional <|
      .cons Node.respects.needed <|
      .cons (Asset.respects.list.defaulting _) <|
      .cons (DataSource.respects.list.defaulting _) <|
      .cons (Theme.respects.defaulting _) <|
      .cons ((respects_of_lawful _).defaulting _) .nil

variable {left right : Document}

theorem equal_toValue (equal : (left == right) = true) :
    left.toValue.equal right.toValue = true :=
  Value.equal_sortKeys (Document.respects left right equal)

/-- Equal documents have one canonical text exactly where the signs of their zeros
agree, and one fingerprint wherever they do. -/
theorem fingerprint_eq_of_beq (equal : (left == right) = true) :
    (left.canonical = right.canonical ↔ left.toValue.zeroSigns = right.toValue.zeroSigns) ∧
      (left.toValue.zeroSigns = right.toValue.zeroSigns →
        left.fingerprint = right.fingerprint) := by
  have texts : left.canonical = right.canonical ↔
      left.toValue.zeroSigns = right.toValue.zeroSigns := by
    rw [← Value.eq_iff_of_equal (equal_toValue equal)]
    exact Value.canonical_eq_iff
  refine ⟨texts, fun signs => ?_⟩
  unfold fingerprint
  rw [texts.mpr signs]

/-- A document whose root stands at `x`. -/
def rootAt (x : Value) : Value :=
  .object [("id", .string "d"),
    ("layoutTree", .object [("id", .string "n"), ("layout", .object [("x", x)]),
      ("type", .string "page")]),
    ("theme", .object [])]

theorem ordered_rootAt {x : Value} (ordered : x.Ordered) : (rootAt x).Ordered := by
  simp only [rootAt, Value.ascending_iff_keys, Value.Ordered, Value.OrderedMembers, List.map,
    ordered]
  decide

theorem validate_rootAt {x : Value} {signs : List Bool} (ordered : x.Ordered)
    (isAccepted : (report .lenient (rootAt x)).valid = true)
    (isWritten : (validate .lenient (rootAt x)).toOption.map
      (fun document => document.toValue.zeroSigns) = some signs) :
    ∃ document, validate .lenient (rootAt x) = .ok document ∧
      document.toValue.zeroSigns = signs := by
  obtain ⟨document, accepted⟩ := (validate_eq_ok_iff (ordered_rootAt ordered)).mpr isAccepted
  rw [accepted] at isWritten
  exact ⟨document, accepted, Option.some.inj isWritten⟩

def plusZero : Value := .float (.signedZero false)

def minusZero : Value := .float (.signedZero true)

def wholeZero : Value := .integer ⟨0, by decide, by decide⟩

theorem validate_plusZero : ∃ document,
    validate .lenient (rootAt plusZero) = .ok document ∧ document.toValue.zeroSigns = [false] :=
  validate_rootAt trivial (by decide) (by decide +kernel)

theorem validate_minusZero : ∃ document,
    validate .lenient (rootAt minusZero) = .ok document ∧ document.toValue.zeroSigns = [true] :=
  validate_rootAt trivial (by decide) (by decide +kernel)

theorem validate_wholeZero : ∃ document,
    validate .lenient (rootAt wholeZero) = .ok document ∧ document.toValue.zeroSigns = [false] :=
  validate_rootAt trivial (by decide) (by decide +kernel)

/-- The whole zero is read as the positive one. -/
theorem fingerprint_eq_of_beq_zero :
    ∃ left right, validate .lenient (rootAt plusZero) = .ok left ∧
      validate .lenient (rootAt wholeZero) = .ok right ∧ (left == right) = true ∧
      left.toValue.zeroSigns = right.toValue.zeroSigns ∧ left.canonical = right.canonical ∧
      left.fingerprint = right.fingerprint := by
  obtain ⟨left, acceptedLeft, leftSigns⟩ := validate_plusZero
  obtain ⟨right, acceptedRight, rightSigns⟩ := validate_wholeZero
  have equal : (validate .lenient (rootAt plusZero)).toOption.bind (fun left =>
      (validate .lenient (rootAt wholeZero)).toOption.map fun right => left == right) =
        some true := by
    decide +kernel
  rw [acceptedLeft, acceptedRight] at equal
  have signs := leftSigns.trans rightSigns.symm
  have texts := fingerprint_eq_of_beq (Option.some.inj equal)
  exact ⟨left, right, acceptedLeft, acceptedRight, Option.some.inj equal, signs,
    texts.1.mpr signs, texts.2 signs⟩

/-- The two zeros are equal and are written differently, so that two equal documents
differ in their canonical texts, and in their fingerprints unless these collide. -/
theorem canonical_ne_of_beq :
    ∃ left right, validate .lenient (rootAt plusZero) = .ok left ∧
      validate .lenient (rootAt minusZero) = .ok right ∧ (left == right) = true ∧
      left.canonical ≠ right.canonical ∧
      (left.fingerprint = right.fingerprint →
        Collision (utf8 left.canonical) (utf8 right.canonical)) := by
  obtain ⟨left, acceptedLeft, leftSigns⟩ := validate_plusZero
  obtain ⟨right, acceptedRight, rightSigns⟩ := validate_minusZero
  have equal : (validate .lenient (rootAt plusZero)).toOption.bind (fun left =>
      (validate .lenient (rootAt minusZero)).toOption.map fun right => left == right) =
        some true := by
    decide +kernel
  rw [acceptedLeft, acceptedRight] at equal
  have different : left.canonical ≠ right.canonical := by
    intro same
    have sameSigns := congrArg Value.zeroSigns (Value.canonical_eq_iff.mp same)
    change left.toValue.zeroSigns = right.toValue.zeroSigns at sameSigns
    rw [leftSigns, rightSigns] at sameSigns
    exact absurd sameSigns (by decide)
  refine ⟨left, right, acceptedLeft, acceptedRight, Option.some.inj equal, different, ?_⟩
  exact fun same => (Digest.eq_or_collision same).resolve_left different

end Document

end Wireframe
