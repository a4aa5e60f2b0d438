import Mathlib.Tactic.Ring
import Mathlib.Tactic.Linarith
import Wireframe.Number.Binary64

/-!
Contract: which quotients round to a code.

Owns:
- the magnitudes of neighbouring codes;
- `nearestCode_eq`: a quotient at most halfway to the neighbours of a code rounds
  to it, the halves themselves only where the code is even.

Does not own: any spelling of a number as text.
-/

namespace Wireframe.Number

@[simp] theorem twoTo_eq_pow (exponent : Nat) : twoTo exponent = 2 ^ exponent := rfl

@[simp] theorem tenTo_eq_pow (exponent : Nat) : tenTo exponent = 10 ^ exponent := rfl

theorem binade_eq : binade = 2 ^ 52 := rfl

theorem binade_pos : 0 < binade := by
  rw [binade_eq]
  positivity

theorem binade_even : binade % 2 = 0 := rfl

theorem unitsPerOne_pos : 0 < unitsPerOne := by
  unfold unitsPerOne
  rw [twoTo_eq_pow]
  positivity

/-! ### Rounding to an integer -/

/-- What lies within half of an integer is rounded to it; on the half itself, the
integer has to be even. -/
theorem divideToEven_eq {numerator denominator target : Nat} (positive : 0 < denominator)
    (low : 2 * (target * denominator) ≤ 2 * numerator + denominator)
    (high : 2 * numerator ≤ 2 * (target * denominator) + denominator)
    (tie : target % 2 = 1 →
      2 * (target * denominator) < 2 * numerator + denominator ∧
        2 * numerator < 2 * (target * denominator) + denominator) :
    divideToEven numerator denominator = target := by
  have split : denominator * (numerator / denominator) + numerator % denominator = numerator :=
    Nat.div_add_mod numerator denominator
  have small : numerator % denominator < denominator := Nat.mod_lt numerator positive
  unfold divideToEven
  generalize numerator / denominator = quotient at split ⊢
  generalize numerator % denominator = rest at split small ⊢
  subst split
  rw [Nat.mul_comm denominator quotient] at low high tie
  have atLeast : quotient ≤ target := by
    by_contra less
    have bounded := Nat.mul_le_mul_right denominator (Nat.not_le.mp less)
    rw [Nat.succ_mul] at bounded
    omega
  have atMost : target ≤ quotient + 1 := by
    by_contra greater
    have bounded := Nat.mul_le_mul_right denominator (Nat.not_le.mp greater)
    rw [Nat.succ_mul, Nat.add_mul, Nat.one_mul] at bounded
    omega
  obtain rfl | rfl : target = quotient ∨ target = quotient + 1 := by omega
  · simp only
    split
    · omega
    · split
      · rfl
      · have even : target % 2 ≠ 1 := fun odd => by have := tie odd; omega
        omega
  · rw [Nat.add_mul, Nat.one_mul] at low high tie
    simp only
    split
    · rfl
    · split
      · omega
      · have even : (quotient + 1) % 2 ≠ 1 := fun odd => by have := tie odd; omega
        omega

/-! ### The magnitudes of codes -/

theorem unitsOfCode_of_lt {code : Nat} (below : code < binade) : unitsOfCode code = code :=
  if_pos below

/-- From the first normal code on, a code is an exponent and a significand. -/
theorem exists_eq_normal {code : Nat} (large : binade ≤ code) :
    ∃ exponent significand, significand < binade ∧
      code = (exponent + 1) * binade + significand := by
  obtain ⟨exponent, quotient⟩ := Nat.exists_eq_add_of_le' (Nat.div_pos large binade_pos)
  refine ⟨exponent, code % binade, Nat.mod_lt _ binade_pos, ?_⟩
  have same : exponent + 1 = code / binade := quotient.symm
  rw [same, Nat.mul_comm, Nat.div_add_mod]

/-- A normal magnitude has a leading one before its significand. -/
theorem unitsOfCode_normal (exponent : Nat) {significand : Nat} (below : significand < binade) :
    unitsOfCode ((exponent + 1) * binade + significand) =
      (binade + significand) * 2 ^ exponent := by
  have positive := binade_pos
  have large : ¬ (exponent + 1) * binade + significand < binade := by
    rw [Nat.add_mul, Nat.one_mul]
    omega
  have modulus : ((exponent + 1) * binade + significand) % binade = significand := by
    rw [Nat.mul_add_mod_self_right, Nat.mod_eq_of_lt below]
  have quotient : ((exponent + 1) * binade + significand) / binade = exponent + 1 := by
    rw [Nat.add_comm, Nat.add_mul_div_right _ _ positive, Nat.div_eq_of_lt below, Nat.zero_add]
  unfold unitsOfCode
  rw [if_neg large, modulus, quotient, Nat.add_sub_cancel, twoTo_eq_pow]

/-- The next magnitude is one step up, into the next binade where this one ends. -/
theorem unitsOfCode_succ_normal (exponent : Nat) {significand : Nat}
    (below : significand < binade) :
    unitsOfCode ((exponent + 1) * binade + significand + 1) =
      (binade + significand + 1) * 2 ^ exponent := by
  by_cases last : significand + 1 = binade
  · have next : (exponent + 1) * binade + significand + 1 = (exponent + 1 + 1) * binade + 0 := by
      rw [Nat.add_mul (exponent + 1) 1, Nat.one_mul]
      omega
    rw [next, unitsOfCode_normal _ binade_pos, Nat.add_assoc binade, last, Nat.pow_succ]
    ring
  · rw [Nat.add_assoc _ significand 1, unitsOfCode_normal _ (by omega), Nat.add_assoc]

/-- The magnitude before is one step down where the binade does not begin. -/
theorem unitsOfCode_pred_normal (exponent : Nat) {significand : Nat}
    (below : significand + 1 < binade) :
    unitsOfCode ((exponent + 1) * binade + (significand + 1) - 1) =
      (binade + significand) * 2 ^ exponent := by
  rw [← Nat.add_assoc, Nat.add_sub_cancel, unitsOfCode_normal _ (by omega)]

/-- The same where no binade begins between normal magnitudes. -/
theorem unitsOfCode_pred_inside {exponent significand : Nat} (below : significand < binade)
    (inside : exponent = 0 ∨ 0 < significand) :
    unitsOfCode ((exponent + 1) * binade + significand - 1) =
      (binade + significand - 1) * 2 ^ exponent := by
  have positive := binade_pos
  cases significand with
  | zero =>
      obtain rfl : exponent = 0 := by omega
      rw [unitsOfCode_of_lt (by omega)]
      simp
  | succ before => rw [unitsOfCode_pred_normal _ below, ← Nat.add_assoc, Nat.add_sub_cancel]

/-- Where a binade begins, the magnitude before is half a step down. -/
theorem unitsOfCode_pred_binade (exponent : Nat) :
    unitsOfCode ((exponent + 1 + 1) * binade + 0 - 1) =
      (2 * binade - 1) * 2 ^ exponent := by
  have positive := binade_pos
  have previous : (exponent + 1 + 1) * binade + 0 - 1 =
      (exponent + 1) * binade + (binade - 1) := by
    rw [Nat.add_mul (exponent + 1) 1, Nat.one_mul]
    omega
  rw [previous, unitsOfCode_normal _ (by omega)]
  congr 1

theorem unitsOfCode_succ_small {code : Nat} (small : code < binade) :
    unitsOfCode (code + 1) = code + 1 := by
  rcases Nat.lt_or_eq_of_le (Nat.succ_le_of_lt small) with inside | last
  · exact unitsOfCode_of_lt inside
  · have first := unitsOfCode_normal 0 binade_pos
    simp only [Nat.zero_add, Nat.one_mul, Nat.add_zero, Nat.pow_zero, Nat.mul_one] at first
    rw [← Nat.succ_eq_add_one, last, first]

theorem unitsOfCode_lt_succ (code : Nat) : unitsOfCode code < unitsOfCode (code + 1) := by
  rcases Nat.lt_or_ge code binade with small | large
  · rw [unitsOfCode_of_lt small, unitsOfCode_succ_small small]
    exact Nat.lt_succ_self code
  · obtain ⟨exponent, significand, below, rfl⟩ := exists_eq_normal large
    rw [unitsOfCode_normal _ below, unitsOfCode_succ_normal _ below]
    exact Nat.mul_lt_mul_of_pos_right (Nat.lt_succ_self _) (by positivity)

/-! ### Rounding to a code -/

/-- The step of a quotient by the binade it lies in; the lowest two share one. -/
theorem step_eq {quotient exponent : Nat}
    (low : exponent = 0 ∨ 2 ^ (52 + exponent) ≤ quotient)
    (high : quotient < 2 ^ (53 + exponent)) : quotient.log2 - 52 = exponent := by
  rcases Nat.eq_zero_or_pos quotient with rfl | positive
  · rcases low with rfl | low
    · rfl
    · have power : 0 < 2 ^ (52 + exponent) := by positivity
      omega
  · have notZero : quotient ≠ 0 := Nat.pos_iff_ne_zero.mp positive
    have below : quotient.log2 < 53 + exponent := (Nat.log2_lt notZero).mpr high
    rcases low with rfl | low
    · omega
    · have above : 52 + exponent ≤ quotient.log2 := (Nat.le_log2 notZero).mpr low
      omega

section Nearest

variable {numerator denominator : Nat}

/-- Rounding within a binade: the significand is what lies nearest. -/
theorem nearestCode_of_step {exponent : Nat} (significand : Nat) (positive : 0 < denominator)
    (step : (numerator * unitsPerOne / denominator).log2 - 52 = exponent)
    (low : 2 * (significand * (denominator * 2 ^ exponent)) ≤
      2 * (numerator * unitsPerOne) + denominator * 2 ^ exponent)
    (high : 2 * (numerator * unitsPerOne) ≤
      2 * (significand * (denominator * 2 ^ exponent)) + denominator * 2 ^ exponent)
    (tie : significand % 2 = 1 →
      2 * (significand * (denominator * 2 ^ exponent)) <
          2 * (numerator * unitsPerOne) + denominator * 2 ^ exponent ∧
        2 * (numerator * unitsPerOne) <
          2 * (significand * (denominator * 2 ^ exponent)) + denominator * 2 ^ exponent) :
    nearestCode numerator denominator = exponent * binade + significand := by
  have wide : 0 < denominator * 2 ^ exponent := by positivity
  unfold nearestCode
  simp only [step, twoTo_eq_pow]
  rw [divideToEven_eq wide low high tie]

/-- What a quotient has to be near to, for it to round to a code. -/
structure NearCode (code numerator denominator : Nat) : Prop where
  low : (unitsOfCode (code - 1) + unitsOfCode code) * denominator ≤
    2 * (numerator * unitsPerOne)
  high : 2 * (numerator * unitsPerOne) ≤
    (unitsOfCode code + unitsOfCode (code + 1)) * denominator
  tie : code % 2 = 1 →
    (unitsOfCode (code - 1) + unitsOfCode code) * denominator < 2 * (numerator * unitsPerOne) ∧
      2 * (numerator * unitsPerOne) < (unitsOfCode code + unitsOfCode (code + 1)) * denominator

variable {code : Nat}

/-- The magnitudes of the lowest codes are the codes themselves. -/
theorem nearestCode_of_small (positive : 0 < denominator) (code_pos : 0 < code)
    (small : code < binade) (near : NearCode code numerator denominator) :
    nearestCode numerator denominator = code := by
  obtain ⟨low, high, tie⟩ := near
  have own : unitsOfCode code = code := unitsOfCode_of_lt small
  have previous : unitsOfCode (code - 1) = code - 1 := unitsOfCode_of_lt (by omega)
  have next : unitsOfCode (code + 1) = code + 1 := unitsOfCode_succ_small small
  have below : (code - 1 + code) * denominator + denominator = 2 * (code * denominator) := by
    rw [← Nat.succ_mul, ← Nat.mul_assoc]
    congr 1
    omega
  have above : (code + (code + 1)) * denominator = 2 * (code * denominator) + denominator := by
    ring
  rw [previous, own] at low
  rw [own, next, above] at high
  rw [previous, own, next, above] at tie
  have step : (numerator * unitsPerOne / denominator).log2 - 52 = 0 := by
    apply step_eq (Or.inl rfl)
    rw [Nat.div_lt_iff_lt_mul positive]
    have bounded : (code + 1) * denominator ≤ 2 ^ (53 + 0) * denominator := by
      apply Nat.mul_le_mul_right
      rw [binade_eq] at small
      omega
    rw [Nat.add_mul, Nat.one_mul] at bounded
    omega
  have rounds := nearestCode_of_step code positive step
  simp only [Nat.pow_zero, Nat.mul_one, Nat.zero_mul, Nat.zero_add] at rounds
  apply rounds
  · omega
  · omega
  · intro odd
    have := tie odd
    omega

/-- Rounding among normal magnitudes that share an exponent. -/
theorem nearestCode_of_normal {exponent significand : Nat} (positive : 0 < denominator)
    (below : significand < binade)
    (reached : exponent = 0 ∨ binade * (denominator * 2 ^ exponent) ≤ numerator * unitsPerOne)
    (low : 2 * ((binade + significand) * (denominator * 2 ^ exponent)) ≤
      2 * (numerator * unitsPerOne) + denominator * 2 ^ exponent)
    (high : 2 * (numerator * unitsPerOne) ≤
      2 * ((binade + significand) * (denominator * 2 ^ exponent)) + denominator * 2 ^ exponent)
    (tie : significand % 2 = 1 →
      2 * ((binade + significand) * (denominator * 2 ^ exponent)) <
          2 * (numerator * unitsPerOne) + denominator * 2 ^ exponent ∧
        2 * (numerator * unitsPerOne) <
          2 * ((binade + significand) * (denominator * 2 ^ exponent)) +
            denominator * 2 ^ exponent) :
    nearestCode numerator denominator = (exponent + 1) * binade + significand := by
  have wide : 0 < denominator * 2 ^ exponent := by positivity
  have step : (numerator * unitsPerOne / denominator).log2 - 52 = exponent := by
    apply step_eq
    · rcases reached with isZero | reached
      · exact Or.inl isZero
      · have scale : 2 ^ (52 + exponent) * denominator =
            binade * (denominator * 2 ^ exponent) := by
          rw [binade_eq, Nat.pow_add]
          ring
        rw [Nat.le_div_iff_mul_le positive, scale]
        exact Or.inr reached
    · have scale : 2 ^ (53 + exponent) * denominator =
          (binade + binade) * (denominator * 2 ^ exponent) := by
        rw [binade_eq, Nat.pow_add]
        ring
      rw [Nat.div_lt_iff_lt_mul positive, scale]
      have bounded : (binade + significand + 1) * (denominator * 2 ^ exponent) ≤
          (binade + binade) * (denominator * 2 ^ exponent) :=
        Nat.mul_le_mul_right _ (by omega)
      rw [Nat.add_mul _ 1, Nat.one_mul] at bounded
      omega
  have even := binade_even
  rw [nearestCode_of_step (binade + significand) positive step low high
    (fun odd => tie (by omega)), Nat.add_mul, Nat.one_mul, Nat.add_assoc]

/-- Rounding to a magnitude whose neighbours are equally far. -/
theorem nearestCode_of_inside {exponent significand : Nat} (positive : 0 < denominator)
    (below : significand < binade) (inside : exponent = 0 ∨ 0 < significand)
    (near : NearCode ((exponent + 1) * binade + significand) numerator denominator) :
    nearestCode numerator denominator = (exponent + 1) * binade + significand := by
  have binadePositive := binade_pos
  obtain ⟨low, high, tie⟩ := near
  have previous := unitsOfCode_pred_inside below inside
  have lower : ((binade + significand - 1) * 2 ^ exponent + (binade + significand) *
      2 ^ exponent) * denominator + denominator * 2 ^ exponent =
      2 * ((binade + significand) * (denominator * 2 ^ exponent)) := by
    have one : binade + significand - 1 + 1 = binade + significand := by omega
    generalize binade + significand - 1 = less at one ⊢
    rw [← one]
    ring
  have upper : ((binade + significand) * 2 ^ exponent + (binade + significand + 1) *
      2 ^ exponent) * denominator =
      2 * ((binade + significand) * (denominator * 2 ^ exponent)) +
        denominator * 2 ^ exponent := by
    ring
  rw [previous, unitsOfCode_normal _ below] at low
  rw [unitsOfCode_normal _ below, unitsOfCode_succ_normal _ below, upper] at high
  rw [previous, unitsOfCode_normal _ below, unitsOfCode_succ_normal _ below, upper] at tie
  have parity : ((exponent + 1) * binade + significand) % 2 = significand % 2 := by
    rw [Nat.add_mod, Nat.mul_mod, binade_even]
    simp
  rw [parity] at tie
  apply nearestCode_of_normal positive below
  · rcases inside with isZero | later
    · exact Or.inl isZero
    · have bounded : (binade + 1) * (denominator * 2 ^ exponent) ≤
          (binade + significand) * (denominator * 2 ^ exponent) :=
        Nat.mul_le_mul_right _ (by omega)
      rw [Nat.add_mul, Nat.one_mul] at bounded
      omega
  · omega
  · exact high
  · intro odd
    have := tie odd
    omega

/-- Rounding to the first magnitude of a binade: below it the steps are halved, so
that the quotient may round up from the binade before. -/
theorem nearestCode_of_first {exponent : Nat} (positive : 0 < denominator)
    (near : NearCode ((exponent + 1 + 1) * binade + 0) numerator denominator) :
    nearestCode numerator denominator = (exponent + 1 + 1) * binade + 0 := by
  have binadePositive := binade_pos
  obtain ⟨low, high, -⟩ := near
  have half : denominator * 2 ^ (exponent + 1) = 2 * (denominator * 2 ^ exponent) := by
    ring
  rw [unitsOfCode_pred_binade, unitsOfCode_normal _ binadePositive] at low
  rw [unitsOfCode_normal _ binadePositive, unitsOfCode_succ_normal _ binadePositive] at high
  have lower : ((2 * binade - 1) * 2 ^ exponent + (binade + 0) * 2 ^ (exponent + 1)) *
      denominator + denominator * 2 ^ exponent =
      4 * (binade * (denominator * 2 ^ exponent)) := by
    have one : 2 * binade - 1 + 1 = 2 * binade := by omega
    generalize 2 * binade - 1 = less at one ⊢
    rw [Nat.add_zero, Nat.pow_succ]
    calc (less * 2 ^ exponent + binade * (2 ^ exponent * 2)) * denominator +
          denominator * 2 ^ exponent
        = (less + 1) * (denominator * 2 ^ exponent) +
            2 * (binade * (denominator * 2 ^ exponent)) := by ring
      _ = 4 * (binade * (denominator * 2 ^ exponent)) := by rw [one]; ring
  have upper : ((binade + 0) * 2 ^ (exponent + 1) + (binade + 0 + 1) * 2 ^ (exponent + 1)) *
      denominator = 4 * (binade * (denominator * 2 ^ exponent)) +
        2 * (denominator * 2 ^ exponent) := by
    ring
  rw [upper] at high
  have wide : 0 < denominator * 2 ^ exponent := by positivity
  by_cases reached : binade * (denominator * 2 ^ (exponent + 1)) ≤ numerator * unitsPerOne
  · apply nearestCode_of_normal positive binadePositive (Or.inr reached)
    · rw [Nat.add_zero, half, Nat.mul_left_comm binade 2]
      rw [half, Nat.mul_left_comm binade 2] at reached
      omega
    · rw [Nat.add_zero, half, Nat.mul_left_comm binade 2]
      omega
    · intro odd
      exact absurd odd (by decide)
  · rw [half, Nat.mul_left_comm binade 2] at reached
    have step : (numerator * unitsPerOne / denominator).log2 - 52 = exponent := by
      apply step_eq
      · have scale : 2 ^ (52 + exponent) * denominator =
            binade * (denominator * 2 ^ exponent) := by
          rw [binade_eq, Nat.pow_add]
          ring
        rw [Nat.le_div_iff_mul_le positive, scale]
        have bounded : 1 * (denominator * 2 ^ exponent) ≤
            binade * (denominator * 2 ^ exponent) :=
          Nat.mul_le_mul_right _ binadePositive
        omega
      · have scale : 2 ^ (53 + exponent) * denominator =
            2 * (binade * (denominator * 2 ^ exponent)) := by
          rw [binade_eq, Nat.pow_add]
          ring
        rw [Nat.div_lt_iff_lt_mul positive, scale]
        omega
    have twice : 2 * binade * (denominator * 2 ^ exponent) =
        2 * (binade * (denominator * 2 ^ exponent)) := by
      ring
    rw [nearestCode_of_step (2 * binade) positive step (by omega) (by omega) (by omega)]
    ring

/-- A quotient near enough to a code rounds to it. -/
theorem nearestCode_eq (positive : 0 < denominator) (code_pos : 0 < code)
    (near : NearCode code numerator denominator) : nearestCode numerator denominator = code := by
  rcases Nat.lt_or_ge code binade with small | large
  · exact nearestCode_of_small positive code_pos small near
  · obtain ⟨exponent, significand, below, rfl⟩ := exists_eq_normal large
    by_cases inside : exponent = 0 ∨ 0 < significand
    · exact nearestCode_of_inside positive below inside near
    · obtain ⟨before, rfl⟩ := Nat.exists_eq_succ_of_ne_zero (fun isZero => inside (Or.inl isZero))
      obtain rfl : significand = 0 := by omega
      exact nearestCode_of_first positive near

end Nearest

end Wireframe.Number
