import Mathlib.Algebra.Order.Field.Basic
import Mathlib.Data.Rat.Cast.Order
import Mathlib.Order.Monotone.Basic
import Mathlib.Tactic.NormNum
import Wireframe.Check.Rule
import Wireframe.Proofs.Number.Rounding

/-!
Contract: positions on the number line compare as the numbers themselves.

Owns:
- `Binary64.value`, the exact rational value of a number;
- its order, which is that of positions;
- the bounds of rules, read as bounds on values.
-/

namespace Wireframe.Number

theorem unitsOfCode_strictMono : StrictMono unitsOfCode :=
  strictMono_nat_of_lt_succ unitsOfCode_lt_succ

theorem unitsOfCode_zero : unitsOfCode 0 = 0 :=
  unitsOfCode_of_lt binade_pos

/-- The first magnitude of a binade is a power of two. -/
theorem unitsOfCode_first (exponent : Nat) :
    unitsOfCode ((exponent + 1) * binade) = twoTo (52 + exponent) := by
  have first := unitsOfCode_normal exponent binade_pos
  simp only [Nat.add_zero] at first
  rw [first, binade_eq, twoTo_eq_pow, Nat.pow_add]

theorem unitsOfCode_one : unitsOfCode (1023 * binade) = unitsPerOne :=
  unitsOfCode_first 1022

namespace Binary64

/-- The value in units of `2 ^ (-1074)`. -/
def signedUnits (number : Binary64) : Int :=
  if number.negative then -(number.units : Int) else number.units

/-- The exact value; both zeros have the value zero. -/
def value (number : Binary64) : ℚ :=
  number.signedUnits / unitsPerOne

def one : Binary64 :=
  ⟨false, 1023 * binade, by decide⟩

/-- Units grow with the position, on both sides of zero. -/
theorem signedUnits_le_iff (left right : Binary64) :
    left.signedUnits ≤ right.signedUnits ↔ left.position ≤ right.position := by
  have ordered := unitsOfCode_strictMono.le_iff_le (a := left.code) (b := right.code)
  have converse := unitsOfCode_strictMono.le_iff_le (a := right.code) (b := left.code)
  have leftZero := unitsOfCode_strictMono.le_iff_le (a := left.code) (b := 0)
  have rightZero := unitsOfCode_strictMono.le_iff_le (a := right.code) (b := 0)
  rw [unitsOfCode_zero] at leftZero rightZero
  unfold signedUnits position units
  split
  · split <;> omega
  · split <;> omega

/-- Numbers are ordered as their positions are. -/
theorem value_le_iff (left right : Binary64) :
    left.value ≤ right.value ↔ left.position ≤ right.position := by
  have positive : (0 : ℚ) < unitsPerOne := by exact_mod_cast unitsPerOne_pos
  unfold value
  rw [div_le_div_iff_of_pos_right positive, Int.cast_le, signedUnits_le_iff]

theorem value_zero : zero.value = 0 := by
  unfold value
  rw [show zero.signedUnits = 0 by decide, Int.cast_zero, zero_div]

theorem value_one : one.value = 1 := by
  have positive : (unitsPerOne : ℚ) ≠ 0 := by exact_mod_cast unitsPerOne_pos.ne'
  unfold value
  rw [show one.signedUnits = (unitsOfCode (1023 * binade) : Int) from rfl, unitsOfCode_one,
    Int.cast_natCast, div_self positive]

theorem value_nonneg_iff (number : Binary64) : 0 ≤ number.value ↔ 0 ≤ number.position := by
  rw [← value_zero, value_le_iff]
  exact Iff.rfl

theorem value_pos_iff (number : Binary64) : 0 < number.value ↔ 0 < number.position := by
  rw [← value_zero, ← not_le, value_le_iff, not_le]
  exact Iff.rfl

theorem value_le_one_iff (number : Binary64) :
    number.value ≤ 1 ↔ number.position ≤ positionOfOne := by
  rw [← value_one, value_le_iff]
  exact Iff.rfl

end Binary64

end Wireframe.Number

namespace Wireframe.Check.Bound

open Number

variable (number : Binary64)

theorem admits_nonNegative : nonNegative.admits number = true ↔ 0 ≤ number.value := by
  rw [number.value_nonneg_iff]
  exact decide_eq_true_iff

theorem admits_positive : positive.admits number = true ↔ 0 < number.value := by
  rw [number.value_pos_iff]
  exact decide_eq_true_iff

theorem admits_unit : unit.admits number = true ↔ 0 ≤ number.value ∧ number.value ≤ 1 := by
  rw [number.value_nonneg_iff, number.value_le_one_iff]
  unfold admits
  rw [Bool.and_eq_true, decide_eq_true_iff, decide_eq_true_iff]

end Wireframe.Check.Bound
