import Wireframe.Digest.Sha256

/-!
Contract: what a shared digest means.

Owns:
- texts from their UTF-8 bytes, and bytes from their hexadecimal text;
- `Collision`, two messages with one SHA-256 digest;
- texts with one digest are equal or expose a collision.

Does not own: that collisions are hard to find, which is not assumed either.
-/

namespace Wireframe.Digest

theorem utf8_injective {left right : String} (same : utf8 left = utf8 right) : left = right := by
  have encoded := congrArg List.toByteArray same
  change left.toList.utf8Encode = right.toList.utf8Encode at encoded
  rw [← String.toByteArray_ofList, ← String.toByteArray_ofList, String.ofList_toList,
    String.ofList_toList] at encoded
  exact String.toByteArray_inj.mp encoded

theorem digitChar_injective : ∀ left < 16, ∀ right < 16,
    Nat.digitChar left = Nat.digitChar right → left = right := by
  decide

/-- A byte is determined by its two hexadecimal digits. -/
theorem eq_of_hexDigits_eq {left right : UInt8}
    (high : Nat.digitChar (left.toNat / 16) = Nat.digitChar (right.toNat / 16))
    (low : Nat.digitChar (left.toNat % 16) = Nat.digitChar (right.toNat % 16)) :
    left = right := by
  have leftBound := left.toNat_lt
  have rightBound := right.toNat_lt
  have sameHigh := digitChar_injective _ (by omega) _ (by omega) high
  have sameLow := digitChar_injective _ (by omega) _ (by omega) low
  apply UInt8.toNat_inj.mp
  omega

theorem hex_injective {left right : List UInt8} (same : hex left = hex right) : left = right := by
  have sameChars := String.ofList_injective same
  clear same
  induction left generalizing right with
  | nil =>
      cases right with
      | nil => rfl
      | cons byte others => exact absurd sameChars nofun
  | cons byte rest inductionHypothesis =>
      cases right with
      | nil => exact absurd sameChars nofun
      | cons other others =>
          simp only [List.flatMap_cons, List.cons_append, List.nil_append,
            List.cons.injEq] at sameChars
          obtain ⟨high, low, sameRest⟩ := sameChars
          rw [eq_of_hexDigits_eq high low, inductionHypothesis sameRest]

/-- Two messages with one digest. -/
def Collision (left right : List UInt8) : Prop :=
  left ≠ right ∧ sha256 left = sha256 right

theorem eq_or_collision {left right : String} (same : ofText left = ofText right) :
    left = right ∨ Collision (utf8 left) (utf8 right) := by
  by_cases equal : left = right
  · exact Or.inl equal
  · have different : utf8 left ≠ utf8 right := fun sameBytes => equal (utf8_injective sameBytes)
    exact Or.inr ⟨different, hex_injective same⟩

end Wireframe.Digest
