import Mathlib.Algebra.Order.Field.Basic
import Mathlib.Algebra.Order.Field.Power
import Mathlib.Data.Rat.Cast.Order
import Mathlib.Tactic.FieldSimp
import Mathlib.Tactic.NormNum
import Mathlib.Tactic.Positivity
import Wireframe.Number.Shortest
import Wireframe.Proofs.Number.Rounding

/-!
Contract: the shortest decimal of a number rounds back to it.

Owns:
- `Near`, the values that round to a code, and what a reader makes of them;
- that a grid point which is admitted is near, and that seventeen digits are
  enough for one to be admitted.
-/

namespace Wireframe.Number

/-! ### Values that round to a code -/

/-- The values at most halfway to the neighbours of a code; the halves themselves
only where the code is even. -/
structure Near (code : Nat) (value : ℚ) : Prop where
  low : (unitsOfCode (code - 1) + unitsOfCode code : ℚ) ≤ 2 * value * unitsPerOne
  high : 2 * value * unitsPerOne ≤ unitsOfCode code + unitsOfCode (code + 1)
  tie : code % 2 = 1 →
    (unitsOfCode (code - 1) + unitsOfCode code : ℚ) < 2 * value * unitsPerOne ∧
      2 * value * unitsPerOne < unitsOfCode code + unitsOfCode (code + 1)

section Ratio

variable {code numerator denominator : Nat}

/-- A quotient that is near a code is so in whole numbers, too. -/
theorem Near.nearCode (positive : 0 < denominator)
    (near : Near code (numerator / denominator)) : NearCode code numerator denominator := by
  have positiveCast : (0 : ℚ) < denominator := by exact_mod_cast positive
  have scaled : 2 * ((numerator : ℚ) / denominator) * unitsPerOne =
      2 * (numerator * unitsPerOne) / denominator := by
    ring
  obtain ⟨low, high, tie⟩ := near
  rw [scaled] at low high tie
  rw [le_div_iff₀ positiveCast] at low
  rw [div_le_iff₀ positiveCast] at high
  rw [lt_div_iff₀ positiveCast, div_lt_iff₀ positiveCast] at tie
  exact ⟨by exact_mod_cast low, by exact_mod_cast high, fun odd => by exact_mod_cast tie odd⟩

theorem nearestCode_of_near (positive : 0 < denominator) (code_pos : 0 < code)
    (near : Near code (numerator / denominator)) : nearestCode numerator denominator = code :=
  nearestCode_eq positive code_pos (near.nearCode positive)

end Ratio

theorem ofRatio?_of_near {number : Binary64} {numerator denominator : Nat}
    (positive : 0 < denominator) (code_pos : 0 < number.code)
    (near : Near number.code (numerator / denominator)) :
    Binary64.ofRatio? number.negative numerator denominator = some number := by
  unfold Binary64.ofRatio?
  simp only [nearestCode_of_near positive code_pos near, dif_pos number.finite]

theorem ten_zpow_eq (scale : Int) :
    (10 : ℚ) ^ scale = (10 ^ scale.toNat : ℕ) / (10 ^ (-scale).toNat : ℕ) := by
  rcases Int.le_total 0 scale with positive | negative
  · obtain ⟨exponent, rfl⟩ := Int.eq_ofNat_of_zero_le positive
    simp
  · obtain ⟨exponent, isExponent⟩ := Int.eq_ofNat_of_zero_le (Int.neg_nonneg_of_nonpos negative)
    obtain rfl : scale = -exponent := by omega
    simp

/-! ### Points of the decimal grid -/

def Decimal.value (decimal : Decimal) : ℚ :=
  decimal.significand * (10 : ℚ) ^ decimal.scale

/-- Whether a grid point lies among the values that round to a code. -/
def admits (code : Nat) (scale : Int) (point : Nat) : Bool :=
  let units := unitsOfCode code
  let enlarge := tenTo (-scale).toNat
  let twice := 2 * point * (unitsPerOne * tenTo scale.toNat)
  let least := (unitsOfCode (code - 1) + units) * enlarge
  let most := (units + unitsOfCode (code + 1)) * enlarge
  if code % 2 = 0 then decide (least ≤ twice) && decide (twice ≤ most)
  else decide (least < twice) && decide (twice < most)

/-- The exponent of the last digit among `count` digits of a magnitude. -/
def gridScale (code count : Nat) : Int :=
  leadingExponent (unitsOfCode code) - count + 1

/-- The last grid point that is not above a magnitude. -/
def gridFloor (code count : Nat) : Nat :=
  unitsOfCode code * tenTo (-gridScale code count).toNat /
    (unitsPerOne * tenTo (gridScale code count).toNat)

theorem hitWithDigits_eq (tie : Tie) (code count : Nat) :
    hitWithDigits tie code count =
      match admits code (gridScale code count) (gridFloor code count),
        admits code (gridScale code count) (gridFloor code count + 1) with
      | true, true => some (ofGridPoint count (nearerNeighbour tie (gridFloor code count)
          (unitsOfCode code * tenTo (-gridScale code count).toNat)
          (unitsPerOne * tenTo (gridScale code count).toNat)) (gridScale code count))
      | true, false => some (ofGridPoint count (gridFloor code count) (gridScale code count))
      | false, true =>
          some (ofGridPoint count (gridFloor code count + 1) (gridScale code count))
      | false, false => none := rfl

/-- What is looked for with a number of digits is one of two points that are admitted. -/
theorem hitWithDigits_cases (tie : Tie) (code count : Nat) :
    (∃ point, (point = gridFloor code count ∨ point = gridFloor code count + 1) ∧
        admits code (gridScale code count) point = true ∧
        hitWithDigits tie code count =
          some (ofGridPoint count point (gridScale code count))) ∨
      hitWithDigits tie code count = none ∧
        admits code (gridScale code count) (gridFloor code count) = false ∧
        admits code (gridScale code count) (gridFloor code count + 1) = false := by
  have nearer : ∀ lower numerator denominator,
      nearerNeighbour tie lower numerator denominator = lower ∨
        nearerNeighbour tie lower numerator denominator = lower + 1 := by
    intro lower numerator denominator
    unfold nearerNeighbour
    cases tie <;> grind
  cases lowAdmitted : admits code (gridScale code count) (gridFloor code count) with
  | false =>
      cases highAdmitted : admits code (gridScale code count) (gridFloor code count + 1) with
      | false => exact Or.inr ⟨by rw [hitWithDigits_eq, lowAdmitted, highAdmitted], rfl, rfl⟩
      | true =>
          exact Or.inl ⟨_, Or.inr rfl, highAdmitted, by rw [hitWithDigits_eq, lowAdmitted, highAdmitted]⟩
  | true =>
      cases highAdmitted : admits code (gridScale code count) (gridFloor code count + 1) with
      | false =>
          exact Or.inl ⟨_, Or.inl rfl, lowAdmitted, by rw [hitWithDigits_eq, lowAdmitted, highAdmitted]⟩
      | true =>
          refine Or.inl ⟨_, nearer _ _ _, ?_, by rw [hitWithDigits_eq, lowAdmitted, highAdmitted]⟩
          rcases nearer (gridFloor code count) _ _ with isLow | isHigh
          · rw [isLow, lowAdmitted]
          · rw [isHigh, highAdmitted]

theorem admits_iff {code : Nat} {scale : Int} {point : Nat} :
    admits code scale point = true ↔
      (code % 2 = 0 ∧
        (unitsOfCode (code - 1) + unitsOfCode code) * 10 ^ (-scale).toNat ≤
          2 * point * (unitsPerOne * 10 ^ scale.toNat) ∧
        2 * point * (unitsPerOne * 10 ^ scale.toNat) ≤
          (unitsOfCode code + unitsOfCode (code + 1)) * 10 ^ (-scale).toNat) ∨
      (code % 2 = 1 ∧
        (unitsOfCode (code - 1) + unitsOfCode code) * 10 ^ (-scale).toNat <
          2 * point * (unitsPerOne * 10 ^ scale.toNat) ∧
        2 * point * (unitsPerOne * 10 ^ scale.toNat) <
          (unitsOfCode code + unitsOfCode (code + 1)) * 10 ^ (-scale).toNat) := by
  unfold admits
  by_cases even : code % 2 = 0
  · simp only [if_pos even, Bool.and_eq_true, decide_eq_true_eq]
    simp only [tenTo_eq_pow]
    omega
  · simp only [if_neg even, Bool.and_eq_true, decide_eq_true_eq]
    simp only [tenTo_eq_pow]
    omega

theorem near_of_admits {code : Nat} {scale : Int} {point : Nat}
    (admitted : admits code scale point = true) :
    Near code (point * (10 : ℚ) ^ scale) := by
  have positive : (0 : ℚ) < (10 ^ (-scale).toNat : ℕ) := by positivity
  have scaled : 2 * ((point : ℚ) * (10 : ℚ) ^ scale) * unitsPerOne =
      (2 * point * (unitsPerOne * 10 ^ scale.toNat) : ℕ) / (10 ^ (-scale).toNat : ℕ) := by
    rw [ten_zpow_eq]
    push_cast
    ring
  rcases admits_iff.mp admitted with ⟨even, low, high⟩ | ⟨-, low, high⟩
  · constructor
    · rw [scaled, le_div_iff₀ positive]
      exact_mod_cast low
    · rw [scaled, div_le_iff₀ positive]
      exact_mod_cast high
    · intro odd
      omega
  · constructor
    · rw [scaled, le_div_iff₀ positive]
      exact_mod_cast Nat.le_of_lt low
    · rw [scaled, div_le_iff₀ positive]
      exact_mod_cast Nat.le_of_lt high
    · intro _
      rw [scaled, lt_div_iff₀ positive, div_lt_iff₀ positive]
      exact ⟨by exact_mod_cast low, by exact_mod_cast high⟩

theorem value_ofGridPoint (count point : Nat) (scale : Int) :
    (ofGridPoint count point scale).value = point * (10 : ℚ) ^ scale := by
  unfold ofGridPoint
  split
  · rename_i full
    rw [full, tenTo_eq_pow]
    unfold Decimal.value
    rw [zpow_add₀ (by norm_num), zpow_natCast]
    push_cast
    ring
  · rfl

theorem near_of_hitWithDigits {tie : Tie} {code count : Nat} {decimal : Decimal}
    (hit : hitWithDigits tie code count = some decimal) : Near code decimal.value := by
  rcases hitWithDigits_cases tie code count with ⟨point, -, admitted, isHit⟩ | ⟨missed, -⟩
  · rw [isHit] at hit
    rw [← Option.some.inj hit, value_ofGridPoint]
    exact near_of_admits admitted
  · rw [missed] at hit
    exact absurd hit nofun

theorem near_of_firstHit {tie : Tie} {code attempts count : Nat} {decimal : Decimal}
    (hit : firstHit tie code attempts count = some decimal) : Near code decimal.value := by
  induction attempts generalizing count with
  | zero => exact absurd hit nofun
  | succ attempts inductionHypothesis =>
      unfold firstHit at hit
      split at hit
      · rename_i found
        rw [← Option.some.inj hit]
        exact near_of_hitWithDigits found
      · exact inductionHypothesis hit

/-- A hit with some number of digits is not missed. -/
theorem firstHit_ne_none {tie : Tie} {code attempts count : Nat} (digits : Nat)
    (notBefore : count ≤ digits) (notAfter : digits < count + attempts)
    (hit : hitWithDigits tie code digits ≠ none) : firstHit tie code attempts count ≠ none := by
  induction attempts generalizing count with
  | zero => omega
  | succ attempts inductionHypothesis =>
      unfold firstHit
      split
      · exact nofun
      · rename_i missed
        have later : count ≠ digits := by
          rintro rfl
          exact hit missed
        exact inductionHypothesis (by omega) (by omega)

/-! ### Seventeen digits are enough -/

/-- Between the neighbours of a magnitude there is room for two steps of a grid
that is finer than it by sixteen digits. -/
theorem two_units_lt_gap {code : Nat} (code_pos : 0 < code) :
    2 * unitsOfCode code + unitsOfCode (code - 1) * 10 ^ 16 <
      unitsOfCode (code + 1) * 10 ^ 16 := by
  rcases Nat.lt_or_ge code binade with small | large
  · rw [unitsOfCode_of_lt small, unitsOfCode_of_lt (by omega : code - 1 < binade),
      unitsOfCode_succ_small small]
    rw [binade_eq] at small
    omega
  · obtain ⟨exponent, significand, below, rfl⟩ := exists_eq_normal large
    have limit : binade = 2 ^ 52 := binade_eq
    by_cases inside : exponent = 0 ∨ 0 < significand
    · rw [unitsOfCode_normal _ below, unitsOfCode_pred_inside below inside,
        unitsOfCode_succ_normal _ below]
      have room : 2 * (binade + significand) + (binade + significand - 1) * 10 ^ 16 <
          (binade + significand + 1) * 10 ^ 16 := by
        omega
      have scaled := Nat.mul_lt_mul_of_pos_right room (Nat.two_pow_pos exponent)
      linarith
    · obtain ⟨before, rfl⟩ := Nat.exists_eq_succ_of_ne_zero (fun isZero => inside (Or.inl isZero))
      obtain rfl : significand = 0 := by omega
      rw [unitsOfCode_normal _ below, unitsOfCode_succ_normal _ below, Nat.succ_eq_add_one,
        unitsOfCode_pred_binade, Nat.pow_succ]
      have one : 2 * binade - 1 + 1 = 2 * binade := by omega
      generalize 2 * binade - 1 = less at one ⊢
      generalize binade = first at one limit ⊢
      have room : 4 * first + less * 10 ^ 16 < (2 * first + 2) * 10 ^ 16 := by omega
      have scaled := Nat.mul_lt_mul_of_pos_right room (Nat.two_pow_pos before)
      linarith

/-- On a grid that is finer than a magnitude by sixteen digits, one of its two
neighbours there is admitted. -/
theorem admits_neighbour {code : Nat} {scale : Int} (code_pos : 0 < code)
    (fine : unitsPerOne * 10 ^ scale.toNat * 10 ^ 16 ≤
      unitsOfCode code * 10 ^ (-scale).toNat) :
    admits code scale (unitsOfCode code * 10 ^ (-scale).toNat /
        (unitsPerOne * 10 ^ scale.toNat)) = true ∨
      admits code scale (unitsOfCode code * 10 ^ (-scale).toNat /
        (unitsPerOne * 10 ^ scale.toNat) + 1) = true := by
  have positive : 0 < unitsPerOne * 10 ^ scale.toNat :=
    Nat.mul_pos unitsPerOne_pos (by positivity)
  have enlarged : 0 < 10 ^ (-scale).toNat := by positivity
  have split := Nat.div_add_mod (unitsOfCode code * 10 ^ (-scale).toNat)
    (unitsPerOne * 10 ^ scale.toNat)
  have rest := Nat.mod_lt (unitsOfCode code * 10 ^ (-scale).toNat) positive
  have above := Nat.mul_lt_mul_of_pos_right (unitsOfCode_lt_succ code) enlarged
  have below : unitsOfCode (code - 1) * 10 ^ (-scale).toNat <
      unitsOfCode code * 10 ^ (-scale).toNat := by
    have previous := unitsOfCode_lt_succ (code - 1)
    rw [Nat.sub_add_cancel code_pos] at previous
    exact Nat.mul_lt_mul_of_pos_right previous enlarged
  have gap := Nat.mul_lt_mul_of_pos_right (two_units_lt_gap code_pos) enlarged
  rw [admits_iff, admits_iff]
  generalize unitsOfCode code = units at *
  generalize unitsOfCode (code - 1) = previous at *
  generalize unitsOfCode (code + 1) = next at *
  generalize 10 ^ (-scale).toNat = enlarge at *
  generalize unitsPerOne * 10 ^ scale.toNat = denominator at *
  generalize units * enlarge / denominator = lower at *
  have wider : 2 * (units * enlarge) + previous * enlarge * 10 ^ 16 <
      next * enlarge * 10 ^ 16 := by
    linarith
  have point : 2 * lower * denominator = 2 * (denominator * lower) := by ring
  have nextPoint : 2 * (lower + 1) * denominator =
      2 * (denominator * lower) + 2 * denominator := by
    ring
  rw [point, nextPoint, Nat.add_mul, Nat.add_mul]
  omega

theorem unitsPerOne_le : unitsPerOne ≤ 10 ^ 400 := by
  decide +kernel

/-- The digits that lift a magnitude above one start at its leading exponent. -/
theorem leading_le {units : Nat} (positive : 0 < units) :
    10 ^ ((Nat.toDigits 10 (units * tenTo 400 / unitsPerOne)).length - 1) * unitsPerOne ≤
      units * 10 ^ 400 := by
  rw [← Nat.le_div_iff_mul_le unitsPerOne_pos, tenTo_eq_pow]
  generalize lifted : units * 10 ^ 400 / unitsPerOne = quotient
  have atLeastOne : 1 ≤ quotient := by
    rw [← lifted, Nat.le_div_iff_mul_le unitsPerOne_pos, Nat.one_mul]
    exact Nat.le_trans unitsPerOne_le (Nat.le_mul_of_pos_left _ positive)
  have some_digit : 0 < (Nat.toDigits 10 quotient).length := Nat.length_toDigits_pos
  by_cases single : (Nat.toDigits 10 quotient).length = 1
  · rw [single]
    exact atLeastOne
  · by_contra small
    have short := (Nat.length_toDigits_le_iff (b := 10) (by decide) (by omega)).mpr
      (Nat.not_le.mp small)
    omega

/-- A grid of seventeen digits is fine enough. -/
theorem gridScale_seventeen {code : Nat} (code_pos : 0 < code) :
    unitsPerOne * 10 ^ (gridScale code 17).toNat * 10 ^ 16 ≤
      unitsOfCode code * 10 ^ (-gridScale code 17).toNat := by
  have units_pos : 0 < unitsOfCode code := by
    have above := unitsOfCode_lt_succ (code - 1)
    rw [Nat.sub_add_cancel code_pos] at above
    omega
  have leading := leading_le units_pos
  have some_digit : 0 <
      (Nat.toDigits 10 (unitsOfCode code * tenTo 400 / unitsPerOne)).length :=
    Nat.length_toDigits_pos
  unfold gridScale leadingExponent
  generalize (Nat.toDigits 10 (unitsOfCode code * tenTo 400 / unitsPerOne)).length = length at *
  generalize unitsOfCode code = units at *
  generalize unitsPerOne = perOne at *
  rcases Nat.le_total 417 length with long | short
  · obtain ⟨extra, rfl⟩ := Nat.exists_eq_add_of_le long
    have scale : ((417 + extra : ℕ) : Int) - 401 - (17 : ℕ) + 1 = extra := by omega
    rw [scale, Int.toNat_natCast, Int.toNat_neg_natCast, Nat.pow_zero, Nat.mul_one]
    apply Nat.le_of_mul_le_mul_right _ (Nat.pow_pos (n := 400) (by decide : 0 < 10))
    calc perOne * 10 ^ extra * 10 ^ 16 * 10 ^ 400
        = 10 ^ (417 + extra - 1) * perOne := by
          rw [show 417 + extra - 1 = extra + (16 + 400) by omega, Nat.pow_add, Nat.pow_add]
          ring
      _ ≤ units * 10 ^ 400 := leading
  · obtain ⟨missing, isMissing⟩ := Nat.exists_eq_add_of_le short
    have scale : (length : Int) - 401 - (17 : ℕ) + 1 = -(missing : Int) := by omega
    rw [scale, neg_neg, Int.toNat_natCast, Int.toNat_neg_natCast, Nat.pow_zero, Nat.mul_one]
    apply Nat.le_of_mul_le_mul_right _ (Nat.pow_pos (n := length - 1) (by decide : 0 < 10))
    calc perOne * 10 ^ 16 * 10 ^ (length - 1)
        = 10 ^ (length - 1) * perOne * 10 ^ 16 := by ring
      _ ≤ units * 10 ^ 400 * 10 ^ 16 := Nat.mul_le_mul_right _ leading
      _ = units * 10 ^ missing * 10 ^ (length - 1) := by
          have exponents : 400 + 16 = missing + (length - 1) := by omega
          rw [Nat.mul_assoc, ← Nat.pow_add, exponents, Nat.pow_add, ← Nat.mul_assoc]

theorem near_shortest (tie : Tie) {number : Binary64} (positive : 0 < number.code) :
    Near number.code (shortest tie number).value := by
  have found : firstHit tie number.code 17 1 ≠ none := by
    apply firstHit_ne_none 17 (by decide) (by decide)
    rcases hitWithDigits_cases tie number.code 17 with ⟨point, -, -, hit⟩ | ⟨-, low, high⟩
    · rw [hit]
      exact nofun
    · unfold gridFloor at low high
      simp only [tenTo_eq_pow] at low high
      rcases admits_neighbour positive (gridScale_seventeen positive) with admitted | admitted
      · exact absurd (low.symm.trans admitted) Bool.false_ne_true
      · exact absurd (high.symm.trans admitted) Bool.false_ne_true
  unfold shortest
  rw [if_neg (Nat.pos_iff_ne_zero.mp positive)]
  cases hit : firstHit tie number.code 17 1 with
  | none => exact absurd hit found
  | some decimal => exact near_of_firstHit hit

/-! ### Reading a decimal -/

/-- No finite magnitude comes near the numbers of 311 digits. -/
theorem unitsOfCode_lt_of_finite {code : Nat} (finite : code ≤ codeLimit) :
    unitsOfCode code < unitsPerOne * 10 ^ 311 := by
  have ascending : Monotone unitsOfCode :=
    monotone_nat_of_le_succ fun code => Nat.le_of_lt (unitsOfCode_lt_succ code)
  have last : unitsOfCode codeLimit < unitsPerOne * 10 ^ 311 := by decide +kernel
  exact Nat.lt_of_le_of_lt (ascending finite) last

theorem units_pos {code : Nat} (code_pos : 0 < code) : 0 < unitsOfCode code := by
  have above := unitsOfCode_lt_succ (code - 1)
  rw [Nat.sub_add_cancel code_pos] at above
  exact Nat.zero_lt_of_lt above

section Reading

variable {code : Nat} {value : ℚ}

/-- A value near a positive magnitude is at least half of the least one. -/
theorem Near.one_le (near : Near code value) (code_pos : 0 < code) :
    1 ≤ 2 * value * unitsPerOne := by
  have positive : (1 : ℚ) ≤ unitsOfCode code := by exact_mod_cast units_pos code_pos
  have previous : (0 : ℚ) ≤ unitsOfCode (code - 1) := by positivity
  linarith [near.low]

/-- A value near a finite magnitude is less than the numbers of 311 digits. -/
theorem Near.lt_of_finite (near : Near code value) (finite : code < codeLimit) :
    value < 10 ^ 311 := by
  have own : (unitsOfCode code : ℚ) < unitsPerOne * 10 ^ 311 := by
    exact_mod_cast unitsOfCode_lt_of_finite (Nat.le_of_lt finite)
  have next : (unitsOfCode (code + 1) : ℚ) < unitsPerOne * 10 ^ 311 := by
    exact_mod_cast unitsOfCode_lt_of_finite finite
  have positive : (0 : ℚ) < unitsPerOne := by exact_mod_cast unitsPerOne_pos
  have scaled : value * unitsPerOne < 10 ^ 311 * unitsPerOne := by linarith [near.high]
  exact lt_of_mul_lt_mul_right scaled (le_of_lt positive)

end Reading

/-- Digits and a power of ten that are near a number are read as that number. The
size tests of the reader settle nothing that is near. -/
theorem ofDecimal?_of_near {number : Binary64} {digits count : Nat} {exponent : Int}
    (code_pos : 0 < number.code) (counted : digits < 10 ^ count)
    (near : Near number.code (digits * (10 : ℚ) ^ exponent)) :
    Binary64.ofDecimal? number.negative digits count exponent = some number := by
  have ten_pos : (0 : ℚ) < 10 ^ exponent := by positivity
  have notZero : digits ≠ 0 := by
    rintro rfl
    have least := near.one_le code_pos
    simp only [Nat.cast_zero, zero_mul, mul_zero] at least
    exact absurd least (not_le.mpr zero_lt_one)
  have notTiny : ¬ (count : Int) + exponent < -330 := by
    intro tiny
    have least := near.one_le code_pos
    have bounded : (digits : ℚ) * 10 ^ exponent < 10 ^ (-330 : Int) := by
      calc (digits : ℚ) * 10 ^ exponent < 10 ^ count * 10 ^ exponent := by
            apply mul_lt_mul_of_pos_right _ ten_pos
            exact_mod_cast counted
        _ = (10 : ℚ) ^ ((count : Int) + exponent) := by
            rw [zpow_add₀ (by norm_num), zpow_natCast]
        _ ≤ 10 ^ (-330 : Int) := zpow_le_zpow_right₀ (by norm_num) (le_of_lt tiny)
    have small : (2 * unitsPerOne : ℚ) ≤ 10 ^ 330 := by
      have whole : 2 * unitsPerOne ≤ 10 ^ 330 := by decide +kernel
      exact_mod_cast whole
    have inverse : (10 : ℚ) ^ (-330 : Int) * 10 ^ 330 = 1 := by
      rw [← zpow_natCast, ← zpow_add₀ (by norm_num)]
      rfl
    have scaled : (digits : ℚ) * 10 ^ exponent * (2 * unitsPerOne) < 1 := by
      calc (digits : ℚ) * 10 ^ exponent * (2 * unitsPerOne)
          ≤ digits * 10 ^ exponent * 10 ^ 330 := mul_le_mul_of_nonneg_left small (by positivity)
        _ < 10 ^ (-330 : Int) * 10 ^ 330 := mul_lt_mul_of_pos_right bounded (by positivity)
        _ = 1 := inverse
    linarith
  have notHuge : ¬ 310 < exponent := by
    intro huge
    have bounded : (10 : ℚ) ^ 311 ≤ digits * 10 ^ exponent := by
      calc (10 : ℚ) ^ 311 = 1 * 10 ^ (311 : Int) := by rw [one_mul]; rfl
        _ ≤ digits * 10 ^ exponent := by
            apply mul_le_mul _ (zpow_le_zpow_right₀ (by norm_num) huge) (by positivity)
              (by positivity)
            exact_mod_cast Nat.pos_of_ne_zero notZero
    exact absurd (near.lt_of_finite number.finite) (not_lt.mpr bounded)
  unfold Binary64.ofDecimal?
  rw [if_neg notZero, if_neg notTiny]
  rw [ten_zpow_eq] at near
  by_cases negative : exponent < 0
  · rw [if_pos negative]
    have noPower : exponent.toNat = 0 := by omega
    have places : (-exponent).toNat = exponent.natAbs := by omega
    rw [noPower, places, Nat.pow_zero, Nat.cast_one, mul_one_div] at near
    exact ofRatio?_of_near (Nat.pow_pos (by decide)) code_pos near
  · rw [if_neg negative, if_neg notHuge]
    have noPlaces : (-exponent).toNat = 0 := by omega
    have power : exponent.toNat = exponent.natAbs := by omega
    rw [noPlaces, power, Nat.pow_zero, Nat.cast_one, div_one, ← Nat.cast_mul] at near
    apply ofRatio?_of_near Nat.one_pos code_pos
    rw [Nat.cast_one, div_one]
    exact near

end Wireframe.Number
