import Wireframe.Proofs.Document.Equality
import Wireframe.Proofs.Json.Zeros

/-!
Contract: equal typed values are encoded to equal data.

Owns:
- `Codec.Respects`, for scalars, optional values, lists, quadruples and maps;
- `Fields.Respects`, member by member, and records from their members.

Equality on both sides is numeric, so that the data need not be the same.
-/

namespace Wireframe.Codec

open Json Number

theorem beq_pair_iff {α β : Type} [BEq α] [BEq β] {left right : α × β} :
    (left == right) = true ↔ (left.1 == right.1) = true ∧ (left.2 == right.2) = true := by
  obtain ⟨leftFirst, leftSecond⟩ := left
  obtain ⟨rightFirst, rightSecond⟩ := right
  exact Bool.and_eq_true_iff

/-- Equal values have equal data. -/
def Respects {α : Type} [BEq α] (codec : Codec α) : Prop :=
  ∀ left right, (left == right) = true → (codec.encode left).equal (codec.encode right) = true

section Containers

variable {α : Type} [BEq α] {codec : Codec α}

/-- Where equality is sameness, there is nothing to respect. -/
theorem respects_of_lawful [LawfulBEq α] (codec : Codec α) : codec.Respects := by
  intro left right equal
  rw [eq_of_beq equal]
  exact Value.equal_self _

theorem respects_double : double.Respects :=
  fun _ _ equal => equal

theorem respects_json : json.Respects :=
  fun _ _ equal => equal

theorem Respects.option (respects : codec.Respects) : codec.option.Respects := by
  intro left right equal
  cases left with
  | none =>
      cases right with
      | none => rfl
      | some value => exact absurd equal Bool.false_ne_true
  | some value =>
      cases right with
      | none => exact absurd equal Bool.false_ne_true
      | some other => exact respects value other equal

theorem forall₂_of_beq {lefts rights : List α} (equal : (lefts == rights) = true) :
    List.Forall₂ (fun left right => (left == right) = true) lefts rights := by
  induction lefts generalizing rights with
  | nil =>
      cases rights with
      | nil => exact .nil
      | cons right rights => exact absurd equal Bool.false_ne_true
  | cons left lefts inductionHypothesis =>
      cases rights with
      | nil => exact absurd equal Bool.false_ne_true
      | cons right rights =>
          rw [List.cons_beq_cons, Bool.and_eq_true] at equal
          exact .cons equal.1 (inductionHypothesis equal.2)

theorem Respects.list (respects : codec.Respects) : (Codec.list codec).Respects := by
  intro lefts rights equal
  refine Value.equalItems_iff.mpr ?_
  rw [List.forall₂_map_left_iff, List.forall₂_map_right_iff]
  exact (forall₂_of_beq equal).imp respects

theorem Respects.dict (respects : codec.Respects) : (Codec.dict codec).Respects := by
  intro lefts rights equal
  refine Value.equalMembers_iff.mpr ?_
  rw [List.forall₂_map_left_iff, List.forall₂_map_right_iff]
  refine (forall₂_of_beq equal).imp fun left right equalHere => ?_
  obtain ⟨sameKey, equalValues⟩ := beq_pair_iff.mp equalHere
  exact ⟨eq_of_beq sameKey, respects _ _ equalValues⟩

theorem respects_jsonObject : jsonObject.Respects := by
  intro lefts rights equal
  refine Value.equalMembers_iff.mpr ?_
  refine (forall₂_of_beq equal).imp fun left right equalHere => ?_
  obtain ⟨sameKey, equalValues⟩ := beq_pair_iff.mp equalHere
  exact ⟨eq_of_beq sameKey, equalValues⟩

theorem Respects.quad (respects : codec.Respects) : (Codec.quad codec).Respects := by
  rintro ⟨top, right, bottom, left⟩ ⟨otherTop, otherRight, otherBottom, otherLeft⟩ equal
  have equalSides : ((top == otherTop) && ((right == otherRight) &&
      ((bottom == otherBottom) && (left == otherLeft)))) = true := equal
  simp only [Bool.and_eq_true] at equalSides
  obtain ⟨equalTop, equalRight, equalBottom, equalLeft⟩ := equalSides
  refine Value.equalItems_iff.mpr ?_
  exact .cons (respects _ _ equalTop) (.cons (respects _ _ equalRight)
    (.cons (respects _ _ equalBottom) (.cons (respects _ _ equalLeft) .nil)))

end Containers

/-! ### Records -/

/-- Equal values are written as equal members, or neither is written. -/
def Field.Respects {α : Type} [BEq α] (field : Field α) : Prop :=
  ∀ left right, (left == right) = true →
    List.Forall₂ Value.EqualMember (field.encode left) (field.encode right)

def Fields.Respects {γ : Type} [BEq γ] (fields : Fields γ) : Prop :=
  ∀ left right, (left == right) = true →
    List.Forall₂ Value.EqualMember (fields.encode left) (fields.encode right)

section Fields

variable {α : Type} [BEq α] {codec : Codec α} {name : String}

theorem Field.respects_of_isWritten {field : Field α} (respects : field.codec.Respects)
    (written : ∀ left right, (left == right) = true →
      field.presence.isWritten left = field.presence.isWritten right) : field.Respects := by
  intro left right equal
  unfold Field.encode
  rw [written left right equal]
  split
  · exact .cons ⟨rfl, respects left right equal⟩ .nil
  · exact .nil

theorem Respects.needed (respects : codec.Respects) : (Field.needed name codec).Respects :=
  Field.respects_of_isWritten respects fun _ _ _ => rfl

theorem Respects.defaulting (respects : codec.Respects) (default : α) :
    (Field.defaulting name codec default).Respects :=
  Field.respects_of_isWritten respects fun _ _ _ => rfl

theorem Respects.optional (respects : codec.Respects) : (Field.optional name codec).Respects := by
  refine Field.respects_of_isWritten respects.option fun left right equal => ?_
  cases left with
  | none =>
      cases right with
      | none => rfl
      | some value => exact absurd equal Bool.false_ne_true
  | some value =>
      cases right with
      | none => exact absurd equal Bool.false_ne_true
      | some other => rfl

theorem Respects.unlessEmpty {codec : Codec (List α)} (respects : codec.Respects) :
    (Field.unlessEmpty name codec).Respects := by
  refine Field.respects_of_isWritten respects fun left right equal => ?_
  have sameLength := (forall₂_of_beq equal).length_eq
  cases left with
  | nil =>
      cases right with
      | nil => rfl
      | cons value values => exact absurd sameLength nofun
  | cons value values =>
      cases right with
      | nil => exact absurd sameLength nofun
      | cons other others => rfl

theorem Fields.Respects.nil : Fields.nil.Respects :=
  fun _ _ _ => .nil

theorem Fields.Respects.cons {β : Type} [BEq β] {head : Field α} {tail : Fields β}
    (first : head.Respects) (rest : tail.Respects) : (Fields.cons head tail).Respects := by
  rintro ⟨left, lefts⟩ ⟨right, rights⟩ equal
  obtain ⟨equalFirst, equalRest⟩ := beq_pair_iff.mp equal
  exact List.rel_append (first left right equalFirst) (rest lefts rights equalRest)

/-- A record respects equality if its members do and equal records have equal
members. -/
theorem respects_record {γ : Type} [BEq γ] {label : String} {fields : Fields γ} {build : γ → α}
    {split : α → γ}
    (members : ∀ left right, (left == right) = true → (split left == split right) = true)
    (respects : fields.Respects) : (record label fields build split).Respects :=
  fun left right equal => Value.equalMembers_iff.mpr (respects _ _ (members left right equal))

end Fields

end Wireframe.Codec
