import Mathlib.Data.List.Forall2
import Wireframe.Proofs.Json.Order

/-!
Contract: equality of values, and the signs of zeros that it passes over.

Owns:
- equal numbers are the same but for the sign of a zero;
- `Value.zeroSigns`, the signs of all zeros of a value, in order;
- equal values are the same exactly where these signs are;
- putting keys in order respects equality.
-/

namespace Wireframe

open Json Number

namespace Number.Binary64

variable {left right : Binary64}

theorem position_eq_of_beq (equal : (left == right) = true) : left.position = right.position :=
  beq_iff_eq.mp equal

theorem code_eq_of_beq (equal : (left == right) = true) : left.code = right.code := by
  have same := position_eq_of_beq equal
  unfold position at same
  split at same
  · split at same <;> omega
  · split at same <;> omega

theorem eq_of_beq_of_negative (equal : (left == right) = true)
    (sign : left.negative = right.negative) : left = right := by
  have same := code_eq_of_beq equal
  cases left
  cases right
  subst sign
  subst same
  rfl

theorem negative_eq_of_beq (equal : (left == right) = true) (notZero : left.code ≠ 0) :
    left.negative = right.negative := by
  have same := position_eq_of_beq equal
  have sameCode := code_eq_of_beq equal
  unfold position at same
  cases leftSign : left.negative <;> cases rightSign : right.negative
  all_goals
    simp only [leftSign, rightSign, if_true, Bool.false_eq_true, if_false] at same
    first | rfl | omega

/-- The sign of a number that is zero. -/
def zeroSign (number : Binary64) : List Bool :=
  if number.code = 0 then [number.negative] else []

theorem length_zeroSign_eq (equal : (left == right) = true) :
    left.zeroSign.length = right.zeroSign.length := by
  unfold zeroSign
  rw [code_eq_of_beq equal]
  split <;> rfl

theorem eq_of_beq_of_zeroSign (equal : (left == right) = true)
    (signs : left.zeroSign = right.zeroSign) : left = right := by
  apply eq_of_beq_of_negative equal
  by_cases isZero : left.code = 0
  · unfold zeroSign at signs
    rw [if_pos isZero, if_pos ((code_eq_of_beq equal).symm.trans isZero)] at signs
    exact (List.cons.inj signs).1
  · exact negative_eq_of_beq equal isZero

end Number.Binary64

namespace Json.Value

mutual

/-- The signs of all zeros of a value, in the order in which they are written. -/
def zeroSigns : Value → List Bool
  | .float number => number.zeroSign
  | .array items => zeroSignsOfItems items
  | .object members => zeroSignsOfMembers members
  | _ => []

def zeroSignsOfItems : List Value → List Bool
  | [] => []
  | item :: rest => zeroSigns item ++ zeroSignsOfItems rest

def zeroSignsOfMembers : List (String × Value) → List Bool
  | [] => []
  | (_, value) :: rest => zeroSigns value ++ zeroSignsOfMembers rest

end

/-! ### Equal parts -/

/-- Members with one key and equal values. -/
def EqualMember (left right : String × Value) : Prop :=
  left.1 = right.1 ∧ left.2.equal right.2 = true

theorem equalItems_iff {items others : List Value} :
    equalItems items others = true ↔
      List.Forall₂ (fun item other => item.equal other = true) items others := by
  induction items generalizing others with
  | nil => cases others <;> simp [equalItems, List.forall₂_nil_left_iff]
  | cons item items inductionHypothesis =>
      cases others with
      | nil => simp [equalItems, List.forall₂_nil_right_iff]
      | cons other others =>
          rw [equalItems, Bool.and_eq_true, inductionHypothesis, List.forall₂_cons]

theorem equalMembers_iff {members others : List (String × Value)} :
    equalMembers members others = true ↔ List.Forall₂ EqualMember members others := by
  induction members generalizing others with
  | nil => cases others <;> simp [equalMembers, List.forall₂_nil_left_iff]
  | cons member members inductionHypothesis =>
      cases others with
      | nil => simp [equalMembers, List.forall₂_nil_right_iff]
      | cons other others =>
          rw [equalMembers, Bool.and_eq_true, Bool.and_eq_true, beq_iff_eq, inductionHypothesis,
            List.forall₂_cons]
          exact Iff.rfl

/-! ### Signs of zeros -/

/-- The signs of two things: equally many, and where they agree the things are the
same. -/
structure Tells {α : Type} (leftSigns rightSigns : List Bool) (left right : α) : Prop where
  length : leftSigns.length = rightSigns.length
  same : leftSigns = rightSigns → left = right

theorem equalItems_tells {items others : List Value} (each : ∀ item ∈ items, ∀ other : Value,
      item.equal other = true → Tells item.zeroSigns other.zeroSigns item other)
    (equal : equalItems items others = true) :
    Tells (zeroSignsOfItems items) (zeroSignsOfItems others) items others := by
  rw [equalItems_iff] at equal
  induction equal with
  | nil => exact ⟨rfl, fun _ => rfl⟩
  | cons equalFirst equalRest inductionHypothesis =>
      obtain ⟨eachFirst, eachRest⟩ := List.forall_mem_cons.mp each
      have first := eachFirst _ equalFirst
      have rest := inductionHypothesis eachRest
      constructor
      · simp only [zeroSignsOfItems, List.length_append, first.length, rest.length]
      · intro signs
        obtain ⟨firstSigns, restSigns⟩ := List.append_inj signs first.length
        rw [first.same firstSigns, rest.same restSigns]

theorem equalMembers_tells {members others : List (String × Value)}
    (each : ∀ member ∈ members, ∀ other : Value,
      member.2.equal other = true → Tells member.2.zeroSigns other.zeroSigns member.2 other)
    (equal : equalMembers members others = true) :
    Tells (zeroSignsOfMembers members) (zeroSignsOfMembers others) members others := by
  rw [equalMembers_iff] at equal
  induction equal with
  | nil => exact ⟨rfl, fun _ => rfl⟩
  | cons equalFirst equalRest inductionHypothesis =>
      obtain ⟨eachFirst, eachRest⟩ := List.forall_mem_cons.mp each
      have first := eachFirst _ equalFirst.2
      have rest := inductionHypothesis eachRest
      constructor
      · simp only [zeroSignsOfMembers, List.length_append, first.length, rest.length]
      · intro signs
        obtain ⟨firstSigns, restSigns⟩ := List.append_inj signs first.length
        rw [Prod.ext equalFirst.1 (first.same firstSigns), rest.same restSigns]

/-- Equal values have as many zeros, whose signs tell them apart if anything does. -/
theorem equal_tells {left right : Value} (equal : left.equal right = true) :
    Tells left.zeroSigns right.zeroSigns left right := by
  induction left using Value.induction generalizing right with
  | null =>
      cases right with
      | null => exact ⟨rfl, fun _ => rfl⟩
      | _ => exact absurd equal Bool.false_ne_true
  | bool value =>
      cases right with
      | bool other => exact ⟨rfl, fun _ => congrArg bool (beq_iff_eq.mp equal)⟩
      | _ => exact absurd equal Bool.false_ne_true
  | integer number =>
      cases right with
      | integer other =>
          have same : number.value = other.value := beq_iff_eq.mp equal
          cases number
          cases other
          subst same
          exact ⟨rfl, fun _ => rfl⟩
      | _ => exact absurd equal Bool.false_ne_true
  | float number =>
      cases right with
      | float other =>
          have equalNumbers : (number == other) = true := equal
          exact ⟨Binary64.length_zeroSign_eq equalNumbers,
            fun signs => congrArg float (Binary64.eq_of_beq_of_zeroSign equalNumbers signs)⟩
      | _ => exact absurd equal Bool.false_ne_true
  | string text =>
      cases right with
      | string other => exact ⟨rfl, fun _ => congrArg string (beq_iff_eq.mp equal)⟩
      | _ => exact absurd equal Bool.false_ne_true
  | array items inductionHypothesis =>
      cases right with
      | array others =>
          have tells := equalItems_tells
            (fun item isMember _ equalHere => inductionHypothesis item isMember equalHere) equal
          exact ⟨tells.length, fun signs => congrArg array (tells.same signs)⟩
      | _ => exact absurd equal Bool.false_ne_true
  | object members inductionHypothesis =>
      cases right with
      | object others =>
          have tells := equalMembers_tells
            (fun member isMember _ equalHere => inductionHypothesis member isMember equalHere) equal
          exact ⟨tells.length, fun signs => congrArg object (tells.same signs)⟩
      | _ => exact absurd equal Bool.false_ne_true

theorem eq_iff_of_equal {left right : Value} (equal : left.equal right = true) :
    left = right ↔ left.zeroSigns = right.zeroSigns :=
  ⟨congrArg zeroSigns, (equal_tells equal).same⟩

/-! ### Keys in order -/

theorem forall₂_insertMember {key : String} {value other : Value}
    {members others : List (String × Value)} (equalHere : value.equal other = true)
    (equal : List.Forall₂ EqualMember members others) :
    List.Forall₂ EqualMember (insertMember key value members) (insertMember key other others) := by
  induction equal with
  | nil => exact .cons ⟨rfl, equalHere⟩ .nil
  | @cons first otherFirst rest otherRest equalFirst equalRest inductionHypothesis =>
      obtain ⟨firstKey, firstValue⟩ := first
      obtain ⟨otherKey, otherValue⟩ := otherFirst
      obtain rfl : firstKey = otherKey := equalFirst.1
      unfold insertMember
      split
      · exact .cons ⟨rfl, equalHere⟩ (.cons equalFirst equalRest)
      · split
        · exact .cons ⟨rfl, equalHere⟩ equalRest
        · exact .cons equalFirst inductionHypothesis

/-- Members with equal values stay so in key order, since the keys decide alone. -/
theorem forall₂_orderMembers {members others : List (String × Value)}
    (equal : List.Forall₂ EqualMember members others) :
    List.Forall₂ EqualMember (orderMembers members) (orderMembers others) := by
  refine List.rel_foldl ?_ .nil equal
  rintro start otherStart equalStart ⟨key, value⟩ ⟨otherKey, other⟩ ⟨sameKey, equalHere⟩
  obtain rfl : key = otherKey := sameKey
  exact forall₂_insertMember equalHere equalStart

theorem equal_sortKeys {left right : Value} (equal : left.equal right = true) :
    left.sortKeys.equal right.sortKeys = true := by
  induction left using Value.induction generalizing right with
  | array items inductionHypothesis =>
      cases right with
      | array others =>
          rw [sortKeys_array, sortKeys_array]
          refine equalItems_iff.mpr ?_
          rw [List.forall₂_map_left_iff, List.forall₂_map_right_iff]
          have parts := (List.forall₂_and_left items others).mpr
            ⟨inductionHypothesis, equalItems_iff.mp equal⟩
          exact parts.imp fun _ _ part => part.1 part.2
      | _ => exact absurd equal Bool.false_ne_true
  | object members inductionHypothesis =>
      cases right with
      | object others =>
          rw [sortKeys_object, sortKeys_object]
          refine equalMembers_iff.mpr (forall₂_orderMembers ?_)
          rw [List.forall₂_map_left_iff, List.forall₂_map_right_iff]
          have parts := (List.forall₂_and_left members others).mpr
            ⟨inductionHypothesis, equalMembers_iff.mp equal⟩
          exact parts.imp fun _ _ part => ⟨part.2.1, part.1 part.2.2⟩
      | _ => exact absurd equal Bool.false_ne_true
  | _ => cases right <;> exact equal

end Json.Value

end Wireframe
