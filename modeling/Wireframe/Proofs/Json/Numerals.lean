import Wireframe.Proofs.Json.Scanning
import Wireframe.Proofs.Number.Shortest

/-!
Contract: numbers are read back from the way they are written.

Owns:
- what the parts of a numeral are read as: whole digits, fraction digits, exponent;
- integers, which are read back exactly;
- finite binary64 numbers, which are read back with their sign.

Does not own: that the shortest decimal of a number is near it.
-/

namespace Wireframe.Json

open Number Scanner

/-! ### Digits -/

def Digits (chars : List Char) : Prop :=
  ∀ char ∈ chars, char.isDigit = true

theorem digits_append {chars more : List Char} :
    Digits (chars ++ more) ↔ Digits chars ∧ Digits more := by
  simp only [Digits, List.forall_mem_append]

theorem digits_toDigits (value : Nat) : Digits (Nat.toDigits 10 value) :=
  fun _ isMember => Nat.isDigit_of_mem_toDigits (by decide) (by decide) isMember

theorem digits_replicate (count : Nat) : Digits (List.replicate count '0') := by
  intro char isMember
  rw [List.eq_of_mem_replicate isMember]
  rfl

theorem ofDigits_eq (digits : List Char) : ofDigits digits = Nat.ofDigitChars 10 digits 0 :=
  rfl

theorem ofDigits_toDigits (value : Nat) : ofDigits (Nat.toDigits 10 value) = value := by
  rw [ofDigits_eq, Nat.ofDigitChars_ten_toDigits]

theorem ofDigits_append (digits more : List Char) :
    ofDigits (digits ++ more) = 10 ^ more.length * ofDigits digits + ofDigits more := by
  simp only [ofDigits_eq, Nat.ofDigitChars_append]
  exact Nat.ofDigitChars_eq_ofDigitChars_zero

theorem ofDigits_replicate (count : Nat) : ofDigits (List.replicate count '0') = 0 := by
  rw [ofDigits_eq, Nat.ofDigitChars_replicate_zero, Nat.mul_zero]

theorem ofDigits_lt {digits : List Char} (allDigits : Digits digits) :
    ofDigits digits < 10 ^ digits.length := by
  induction digits using List.reverseRecOn with
  | nil => decide
  | append_singleton digits digit inductionHypothesis =>
      rw [digits_append] at allDigits
      have before := inductionHypothesis allDigits.1
      have isDigit := allDigits.2 digit List.mem_cons_self
      have small : ofDigits [digit] < 10 := by
        simp only [Char.isDigit, Bool.and_eq_true, decide_eq_true_eq, ge_iff_le,
          UInt32.le_iff_toNat_le] at isDigit
        have upper : digit.toNat ≤ 57 := isDigit.2
        change 10 * 0 + (digit.toNat - 48) < 10
        omega
      rw [ofDigits_append, List.length_append, List.length_singleton, Nat.pow_succ]
      omega

/-- Digits as they stand before a point: no zero leads, unless it stands alone. -/
structure Whole (chars : List Char) : Prop where
  digits : Digits chars
  notEmpty : chars ≠ []
  leading : chars.head? = some '0' → chars = ['0']

theorem whole_zero : Whole ['0'] :=
  ⟨by simp [Digits], by simp, fun _ => rfl⟩

theorem head?_toDigits {value : Nat} (positive : 0 < value) :
    (Nat.toDigits 10 value).head? ≠ some '0' := by
  induction value using Nat.strongRecOn with
  | ind value inductionHypothesis =>
      rcases Nat.lt_or_ge value 10 with single | several
      · have notZero : ∀ digit < 10, 0 < digit → [digit.digitChar].head? ≠ some '0' := by
          decide
        rw [Nat.toDigits_of_lt_base single]
        exact notZero value single positive
      · rw [Nat.toDigits_of_base_le (by decide) several,
          List.head?_append_of_ne_nil _ Nat.toDigits_ne_nil]
        exact inductionHypothesis (value / 10) (by omega) (by omega)

theorem whole_toDigits (value : Nat) : Whole (Nat.toDigits 10 value) := by
  refine ⟨digits_toDigits value, Nat.toDigits_ne_nil, ?_⟩
  intro isZero
  rcases Nat.eq_zero_or_pos value with rfl | positive
  · exact Nat.toDigits_zero 10
  · exact absurd isZero (head?_toDigits positive)

/-! ### The parts of a numeral -/

section Parts

variable {chars rest : List Char}

theorem yields_wholeDigits (whole : Whole chars) (stops : Stops Char.isDigit rest) :
    Yields wholeDigits chars rest chars := by
  obtain ⟨digit, more, rfl⟩ := List.exists_cons_of_ne_nil whole.notEmpty
  refine Yields.look yields_peek ?_
  have isDigit := whole.digits digit List.mem_cons_self
  by_cases zero : digit = '0'
  · obtain ⟨rfl, rfl⟩ := List.cons.inj (whole.leading (congrArg some zero))
    refine Yields.last (yields_eat '0') ?_
    refine Yields.look yields_peek ?_
    cases rest with
    | nil => exact Yields.pure
    | cons next rest =>
        simp only [List.nil_append, List.head?_cons, stops_cons.mp stops]
        exact Yields.pure
  · simp only [List.cons_append, List.head?_cons, isDigit, if_true]
    exact yields_eatWhile whole.digits stops

theorem yields_fractionDigits_none (stops : Stops (· == '.') rest) :
    Yields fractionDigits [] rest none := by
  refine Yields.look yields_peek ?_
  cases rest with
  | nil => exact Yields.pure
  | cons next rest =>
      have notPoint : next ≠ '.' := by simpa using stops_cons.mp stops
      simp only [List.nil_append, List.head?_cons]
      split
      · rename_i isPoint
        exact absurd (Option.some.inj isPoint) notPoint
      · exact Yields.pure

theorem yields_fractionDigits (digits : Digits chars) (notEmpty : chars ≠ [])
    (stops : Stops Char.isDigit rest) :
    Yields fractionDigits ('.' :: chars) rest (some chars) := by
  refine Yields.look yields_peek ?_
  refine Yields.eat ?_
  refine Yields.last (yields_eatWhile digits stops) ?_
  rw [if_neg (by simpa using notEmpty)]
  exact Yields.pure

/-- Neither spelling of the mark before an exponent. -/
def isExponentMark (char : Char) : Bool := char == 'e' || char == 'E'

theorem yields_exponent_absent (isZero : Bool) (stops : Stops isExponentMark rest) :
    Yields (exponent isZero) [] rest .absent := by
  refine Yields.look yields_peek ?_
  cases rest with
  | nil => exact Yields.pure
  | cons next rest =>
      have notMark : next ≠ 'e' ∧ next ≠ 'E' := by
        simpa [isExponentMark] using stops_cons.mp stops
      simp only [List.nil_append, List.head?_cons]
      split
      · rename_i isLower
        exact absurd (Option.some.inj isLower) notMark.1
      · rename_i isUpper
        exact absurd (Option.some.inj isUpper) notMark.2
      · exact Yields.pure

theorem excessiveExponent_eq_none {digits taken : List Char} {total : Nat}
    (small : Nat.ofDigitChars 10 digits total ≤ exponentLimit) :
    excessiveExponent total taken digits = none := by
  induction digits generalizing taken total with
  | nil => rfl
  | cons digit digits inductionHypothesis =>
      rw [Nat.ofDigitChars_cons] at small
      have grown : 10 * total + (digit.toNat - '0'.toNat) ≤ exponentLimit := by
        refine Nat.le_trans ?_ small
        rw [Nat.ofDigitChars_eq_ofDigitChars_zero]
        refine Nat.le_add_right_of_le (Nat.le_mul_of_pos_left _ ?_)
        exact Nat.pow_pos (by decide)
      unfold excessiveExponent
      rw [if_neg (by omega)]
      exact inductionHypothesis small

def signChar (negative : Bool) : Char := if negative then '-' else '+'

theorem yields_exponent (isZero negative : Bool) {magnitude : Nat}
    (small : magnitude ≤ exponentLimit) (stops : Stops Char.isDigit rest) :
    Yields (exponent isZero) ('e' :: signChar negative :: Nat.toDigits 10 magnitude) rest
      (.power (if negative then -(magnitude : Int) else magnitude)) := by
  have notExcessive : excessiveExponent 0 [] (Nat.toDigits 10 magnitude) = none :=
    excessiveExponent_eq_none (by rwa [Nat.ofDigitChars_ten_toDigits])
  have sign : Yields exponentSign [signChar negative]
      (Nat.toDigits 10 magnitude ++ rest) negative := by
    cases negative with
    | true => exact Yields.look yields_peek (Yields.last (yields_eat '-') Yields.pure)
    | false => exact Yields.look yields_peek (Yields.last (yields_eat '+') Yields.pure)
  have digits := digits_toDigits magnitude
  have notEmpty : Nat.toDigits 10 magnitude ≠ [] := Nat.toDigits_ne_nil
  have spelled := ofDigits_toDigits magnitude
  generalize Nat.toDigits 10 magnitude = spelling at *
  obtain ⟨digit, more, rfl⟩ := List.exists_cons_of_ne_nil notEmpty
  have isDigit := digits digit List.mem_cons_self
  refine Yields.look yields_peek ?_
  refine Yields.eat ?_
  refine Yields.bind sign ?_
  refine Yields.look yields_peek ?_
  simp only [List.cons_append, List.head?_cons, isDigit, if_true]
  refine Yields.get fun offset => ?_
  refine Yields.last (yields_eatWhile digits stops) ?_
  rw [notExcessive, spelled]
  exact Yields.pure

/-- What follows a number: nothing that could belong to it. -/
structure NumberEnds (rest : List Char) : Prop where
  digit : Stops Char.isDigit rest
  point : Stops (· == '.') rest
  mark : Stops isExponentMark rest

/-- The number that a spelling with these parts stands for. -/
def tokenOfParts (negative : Bool) (whole : List Char) (fraction : Option (List Char))
    (power : Exponent) : Option NumberToken :=
  let digits := whole ++ fraction.getD []
  let places : Int := (fraction.getD []).length
  match power, fraction with
  | .absent, none => wholeNumber negative digits
  | .absent, some _ => scaledNumber negative digits (-places)
  | .power power, _ => scaledNumber negative digits (power - places)
  | .vanishing, _ => some (.float (.signedZero negative))

theorem yields_some {token : NumberToken} {given : Option NumberToken}
    (isSome : given = some token) :
    Yields (match given with
      | some token => pure token
      | none => failHere .numberOutOfRange) [] rest token := by
  rw [isSome]
  exact Yields.pure

theorem yields_number {negative : Bool} {whole fractionChars exponentChars : List Char}
    {fraction : Option (List Char)} {power : Exponent} {token : NumberToken}
    (readsWhole : Yields wholeDigits whole (fractionChars ++ (exponentChars ++ rest)) whole)
    (readsFraction : Yields fractionDigits fractionChars (exponentChars ++ rest) fraction)
    (readsExponent : Yields (exponent (ofDigits (whole ++ fraction.getD []) == 0))
      exponentChars rest power)
    (spells : tokenOfParts negative whole fraction power = some token) :
    Yields (number negative) (whole ++ (fractionChars ++ exponentChars)) rest token := by
  refine Yields.bind (by rwa [List.append_assoc]) ?_
  refine Yields.bind readsFraction ?_
  refine Yields.last readsExponent ?_
  exact yields_some spells

end Parts

/-! ### Integers -/

theorem wholeNumber_of_ofInt? {negative : Bool} {magnitude : Nat} {integer : Integer}
    (inRange : Integer.ofInt? (if negative then -(magnitude : Int) else magnitude) = some integer)
    (notZero : negative = true → magnitude ≠ 0) :
    wholeNumber negative (Nat.toDigits 10 magnitude) = some (.integer integer) := by
  unfold wholeNumber
  have kept : (negative && magnitude == 0) = false := by
    cases negative with
    | false => rfl
    | true => simpa using notZero rfl
  simp only [ofDigits_toDigits, kept, inRange]
  rfl

theorem ofInt?_value (integer : Integer) : Integer.ofInt? integer.value = some integer := by
  simp only [Integer.ofInt?, integer.lower, integer.upper, dif_pos]

theorem yields_wholeNumber {negative : Bool} {magnitude : Nat} {integer : Integer}
    {rest : List Char} (ends : NumberEnds rest)
    (inRange : Integer.ofInt? (if negative then -(magnitude : Int) else magnitude) = some integer)
    (notZero : negative = true → magnitude ≠ 0) :
    Yields (number negative) (Nat.toDigits 10 magnitude) rest (.integer integer) := by
  have spells : tokenOfParts negative (Nat.toDigits 10 magnitude) none .absent =
      some (.integer integer) := by
    simp only [tokenOfParts, Option.getD_none, List.append_nil]
    exact wholeNumber_of_ofInt? inRange notZero
  have reads : Yields (number negative) (Nat.toDigits 10 magnitude ++ ([] ++ [])) rest
      (.integer integer) :=
    yields_number (yields_wholeDigits (whole_toDigits magnitude) ends.digit)
      (yields_fractionDigits_none ends.point) (yields_exponent_absent _ ends.mark) spells
  rwa [List.append_nil, List.append_nil] at reads

/-! ### Binary64 numbers -/

theorem eq_signedZero {number : Binary64} (isZero : number.code = 0) :
    Binary64.signedZero number.negative = number := by
  obtain ⟨negative, code, finite⟩ := number
  obtain rfl : code = 0 := isZero
  rfl

/-- Digits of the value of the shortest decimal of a number spell that number. -/
theorem ofDecimal?_shortest {tie : Tie} {number : Binary64} {digits : List Char} {power : Int}
    (allDigits : Digits digits)
    (same : (ofDigits digits : ℚ) * 10 ^ power = (shortest tie number).value) :
    Binary64.ofDecimal? number.negative (ofDigits digits) digits.length power = some number := by
  rcases Nat.eq_zero_or_pos number.code with isZero | positive
  · have noValue : (shortest tie number).value = 0 := by
      simp [shortest, isZero, Decimal.value]
    rw [noValue, mul_eq_zero, or_iff_left (by positivity)] at same
    have noDigits : ofDigits digits = 0 := by exact_mod_cast same
    rw [noDigits, Binary64.ofDecimal?, if_pos rfl, eq_signedZero isZero]
  · refine ofDecimal?_of_near positive (ofDigits_lt allDigits) ?_
    rw [same]
    exact near_shortest tie positive

theorem significand_pos (tie : Tie) {number : Binary64} (positive : 0 < number.code) :
    0 < (shortest tie number).significand := by
  have least := (near_shortest tie positive).one_le positive
  by_contra isZero
  rw [Decimal.value, Nat.eq_zero_of_not_pos isZero] at least
  simp only [Nat.cast_zero, zero_mul, mul_zero] at least
  exact absurd least (not_le.mpr zero_lt_one)

/-- The exponent of a decimal is that of its leading digit. -/
theorem value_bounds {decimal : Decimal} (positive : 0 < decimal.significand) :
    (10 : ℚ) ^ decimal.exponent ≤ decimal.value ∧
      decimal.value < (10 : ℚ) ^ (decimal.exponent + 1) := by
  have below : decimal.significand < 10 ^ decimal.digits.length := by
    have bound := ofDigits_lt (digits_toDigits decimal.significand)
    rwa [ofDigits_toDigits] at bound
  have someDigit : 0 < decimal.digits.length := Nat.length_toDigits_pos
  have above : 10 ^ (decimal.digits.length - 1) ≤ decimal.significand := by
    by_contra small
    rcases Nat.eq_zero_or_pos (decimal.digits.length - 1) with single | several
    · rw [single, Nat.pow_zero] at small
      omega
    · have shorter := (Nat.length_toDigits_le_iff (b := 10) (by decide) several).mpr
        (Nat.lt_of_not_le small)
      change decimal.digits.length ≤ decimal.digits.length - 1 at shorter
      omega
  have ten_pos : (0 : ℚ) < 10 ^ decimal.scale := by positivity
  have isExponent : decimal.exponent = ((decimal.digits.length - 1 : ℕ) : ℤ) + decimal.scale := by
    unfold Decimal.exponent
    omega
  have isNext : decimal.exponent + 1 = (decimal.digits.length : ℤ) + decimal.scale := by
    unfold Decimal.exponent
    omega
  rw [isNext, isExponent, zpow_add₀ (by norm_num), zpow_add₀ (by norm_num), zpow_natCast,
    zpow_natCast]
  constructor
  · exact mul_le_mul_of_nonneg_right (by exact_mod_cast above) ten_pos.le
  · exact mul_lt_mul_of_pos_right (by exact_mod_cast below) ten_pos

/-- The exponent of a finite number can be written in few digits. -/
theorem natAbs_exponent_le (tie : Tie) (number : Binary64) :
    (shortest tie number).exponent.natAbs ≤ exponentLimit := by
  rcases Nat.eq_zero_or_pos number.code with isZero | positive
  · simp [shortest, isZero, Decimal.exponent, Decimal.digits]
  have near := near_shortest tie positive
  have significand_pos := significand_pos tie positive
  generalize shortest tie number = decimal at near significand_pos
  have least := near.one_le positive
  have most := near.lt_of_finite number.finite
  obtain ⟨low, high⟩ := value_bounds significand_pos
  have notLarge : decimal.exponent < 311 := by
    by_contra large
    have larger : (10 : ℚ) ^ (311 : ℤ) ≤ 10 ^ decimal.exponent :=
      zpow_le_zpow_right₀ (by norm_num) (by omega)
    have tooMuch := lt_of_le_of_lt (larger.trans low) most
    exact lt_irrefl _ tooMuch
  have notSmall : -401 < decimal.exponent + 1 := by
    by_contra small
    have smaller : (10 : ℚ) ^ (decimal.exponent + 1) ≤ 10 ^ (-401 : ℤ) :=
      zpow_le_zpow_right₀ (by norm_num) (by omega)
    have units : (unitsPerOne : ℚ) ≤ 10 ^ 400 := by exact_mod_cast unitsPerOne_le
    have units_pos : (0 : ℚ) < unitsPerOne := by exact_mod_cast unitsPerOne_pos
    have tooLittle : 2 * decimal.value * unitsPerOne < 1 := by
      calc 2 * decimal.value * unitsPerOne
          < 2 * 10 ^ (-401 : ℤ) * unitsPerOne :=
            mul_lt_mul_of_pos_right (by linarith) units_pos
        _ ≤ 2 * 10 ^ (-401 : ℤ) * 10 ^ 400 :=
            mul_le_mul_of_nonneg_left units (by positivity)
        _ = 2 * (10 : ℚ) ^ (-401 + (400 : ℕ) : ℤ) := by
            rw [zpow_add₀ (by norm_num), zpow_natCast, mul_assoc]
        _ < 1 := by norm_num
    linarith
  unfold exponentLimit
  omega

section Spelled

variable (tie : Tie) {number : Binary64} {whole fraction rest : List Char}

theorem yields_point (isWhole : Whole whole) (digits : Digits fraction) (notEmpty : fraction ≠ [])
    (ends : NumberEnds rest)
    (same : (ofDigits (whole ++ fraction) : ℚ) * 10 ^ (-(fraction.length : ℤ)) =
      (shortest tie number).value) :
    Yields (Scanner.number number.negative) (whole ++ '.' :: fraction) rest (.float number) := by
  have spells : tokenOfParts number.negative whole (some fraction) .absent =
      some (.float number) := by
    simp only [tokenOfParts, scaledNumber, Option.getD_some]
    rw [ofDecimal?_shortest (digits_append.mpr ⟨isWhole.digits, digits⟩) same]
    rfl
  have reads : Yields (Scanner.number number.negative) (whole ++ ('.' :: fraction ++ [])) rest
      (.float number) :=
    yields_number (yields_wholeDigits isWhole (stops_cons.mpr rfl))
      (yields_fractionDigits digits notEmpty ends.digit) (yields_exponent_absent _ ends.mark)
      spells
  rwa [List.append_nil] at reads

/-- The digits after a point, with it; nothing where there are none. -/
def pointChars (fraction : List Char) : List Char :=
  match fraction with
  | [] => []
  | digits => '.' :: digits

theorem yields_pointChars (digits : Digits fraction) (ends : Stops Char.isDigit rest)
    (noPoint : Stops (· == '.') rest) :
    ∃ read, read.getD [] = fraction ∧ Yields fractionDigits (pointChars fraction) rest read := by
  cases fraction with
  | nil => exact ⟨none, rfl, yields_fractionDigits_none noPoint⟩
  | cons digit fraction =>
      exact ⟨some (digit :: fraction), rfl, yields_fractionDigits digits nofun ends⟩

theorem yields_power {exponent : Int} (isWhole : Whole whole) (digits : Digits fraction)
    (ends : NumberEnds rest) (small : exponent.natAbs ≤ exponentLimit)
    (same : (ofDigits (whole ++ fraction) : ℚ) * 10 ^ (exponent - fraction.length : ℤ) =
      (shortest tie number).value) :
    Yields (Scanner.number number.negative)
      (whole ++ (pointChars fraction ++
        'e' :: signChar (exponent < 0) :: Nat.toDigits 10 exponent.natAbs))
      rest (.float number) := by
  let power := 'e' :: signChar (exponent < 0) :: Nat.toDigits 10 exponent.natAbs
  have readsPower (isZero : Bool) :
      Yields (Scanner.exponent isZero) power rest (.power exponent) := by
    have signed : (if decide (exponent < 0) = true then -(exponent.natAbs : Int)
        else exponent.natAbs) = exponent := by
      split
      · rename_i below
        have negative := of_decide_eq_true below
        omega
      · rename_i notBelow
        have notNegative : ¬exponent < 0 := fun negative => notBelow (decide_eq_true negative)
        omega
    have reads := yields_exponent isZero (exponent < 0) small ends.digit
    rwa [signed] at reads
  obtain ⟨read, isRead, readsFraction⟩ : ∃ read, read.getD [] = fraction ∧
      Yields fractionDigits (pointChars fraction) (power ++ rest) read :=
    yields_pointChars digits (stops_cons.mpr rfl) (stops_cons.mpr rfl)
  have spells : tokenOfParts number.negative whole read (.power exponent) =
      some (.float number) := by
    simp only [tokenOfParts, scaledNumber, isRead]
    rw [ofDecimal?_shortest (digits_append.mpr ⟨isWhole.digits, digits⟩) same]
    rfl
  refine yields_number (yields_wholeDigits isWhole ?_) readsFraction (readsPower _) spells
  cases fraction with
  | nil => exact stops_cons.mpr rfl
  | cons digit fraction => exact stops_cons.mpr rfl

end Spelled

theorem whole_of_leading {chars : List Char} (digits : Digits chars) (notEmpty : chars ≠ [])
    (leading : chars.head? ≠ some '0') : Whole chars :=
  ⟨digits, notEmpty, fun isZero => absurd isZero leading⟩

section Magnitude

variable (tie : Tie) {number : Binary64} {rest : List Char}

/-- The digits of a positive number and what they spell. -/
theorem shortest_digits (positive : 0 < number.code) :
    Digits (shortest tie number).digits ∧ (shortest tie number).digits ≠ [] ∧
      (shortest tie number).digits.head? ≠ some '0' ∧
      (ofDigits (shortest tie number).digits : ℚ) *
          10 ^ ((shortest tie number).exponent + 1 - (shortest tie number).digits.length) =
        (shortest tie number).value := by
  refine ⟨digits_toDigits _, Nat.toDigits_ne_nil, head?_toDigits (significand_pos tie positive), ?_⟩
  have isScale : (shortest tie number).exponent + 1 - (shortest tie number).digits.length =
      (shortest tie number).scale := by
    unfold Decimal.exponent
    omega
  rw [isScale, Decimal.digits, ofDigits_toDigits, Decimal.value]

/-- Digits before and after a point, and the value that they spell. -/
structure Parts (whole fraction : List Char) (value : ℚ) : Prop where
  isWhole : Whole whole
  digits : Digits fraction
  same : (ofDigits (whole ++ fraction) : ℚ) * 10 ^ (-(fraction.length : ℤ)) = value

/-- Below one, the point stands in front of zeros and the digits. -/
theorem parts_below_one {digits : List Char} {zeros : Nat} {value : ℚ} (allDigits : Digits digits)
    (isValue : (ofDigits digits : ℚ) * 10 ^ (-((zeros + digits.length : ℕ) : ℤ)) = value) :
    Parts ['0'] (List.replicate zeros '0' ++ digits) value := by
  have spelled : ofDigits (['0'] ++ (List.replicate zeros '0' ++ digits)) = ofDigits digits := by
    rw [ofDigits_append, ofDigits_append, ofDigits_replicate]
    simp [ofDigits]
  refine ⟨whole_zero, digits_append.mpr ⟨digits_replicate zeros, allDigits⟩, ?_⟩
  rw [spelled, List.length_append, List.length_replicate, isValue]

/-- A whole number has zeros after its digits. -/
theorem parts_without_fraction {digits : List Char} {zeros : Nat} {value : ℚ}
    (allDigits : Digits digits) (notEmpty : digits ≠ []) (leading : digits.head? ≠ some '0')
    (isValue : (ofDigits digits : ℚ) * 10 ^ (zeros : ℤ) = value) :
    Parts (digits ++ List.replicate zeros '0') [] value := by
  have isWhole : Whole (digits ++ List.replicate zeros '0') := by
    refine whole_of_leading (digits_append.mpr ⟨allDigits, digits_replicate zeros⟩)
      (List.append_ne_nil_of_left_ne_nil notEmpty _) ?_
    rwa [List.head?_append_of_ne_nil _ notEmpty]
  refine ⟨isWhole, by simp [Digits], ?_⟩
  rw [List.append_nil, ofDigits_append, ofDigits_replicate, List.length_replicate, ← isValue]
  push_cast
  rw [zpow_natCast, List.length_nil]
  ring

/-- Elsewhere the point stands among the digits. -/
theorem parts_among {digits : List Char} {count : Nat} {value : ℚ} (allDigits : Digits digits)
    (leading : digits.head? ≠ some '0') (count_pos : 0 < count) (inside : count < digits.length)
    (isValue : (ofDigits digits : ℚ) * 10 ^ ((count : ℤ) - digits.length) = value) :
    Parts (digits.take count) (digits.drop count) value := by
  have bothDigits := allDigits
  rw [← List.take_append_drop count digits, digits_append] at bothDigits
  have isWhole : Whole (digits.take count) := by
    refine whole_of_leading bothDigits.1 (List.length_pos_iff.mp ?_) ?_
    · rw [List.length_take]
      omega
    · rwa [List.head?_take, if_neg (by omega)]
  have isPlaces : (-((digits.drop count).length : ℤ)) = (count : ℤ) - digits.length := by
    rw [List.length_drop]
    omega
  refine ⟨isWhole, bothDigits.2, ?_⟩
  rw [List.take_append_drop, isPlaces, isValue]

/-- Without an exponent, a number is written as its digits before and after the point,
with a mark in place of a point that nothing follows. -/
theorem exists_parts_of_pos (positive : 0 < number.code) :
    ∃ whole fraction, Parts whole fraction (shortest tie number).value ∧ ∀ wholeMark,
      Spelling.positional wholeMark (shortest tie number).digits (shortest tie number).exponent =
        whole ++ if fraction = [] then wholeMark else '.' :: fraction := by
  rcases shortest_digits tie positive with ⟨allDigits, notEmpty, leading, isValue⟩
  generalize (shortest tie number).digits = digits at *
  generalize (shortest tie number).exponent = exponent at *
  unfold Spelling.positional
  by_cases negative : exponent < 0
  · refine ⟨['0'], List.replicate (exponent.natAbs - 1) '0' ++ digits,
      parts_below_one allDigits ?_, fun wholeMark => ?_⟩
    · rw [← isValue]
      congr 2
      omega
    · rw [if_pos negative, if_neg (List.append_ne_nil_of_right_ne_nil _ notEmpty)]
      simp
  · rcases Int.eq_ofNat_of_zero_le (Int.not_lt.mp negative) with ⟨least, rfl⟩
    simp only [if_neg negative, Int.toNat_natCast]
    by_cases fits : digits.length ≤ least + 1
    · refine ⟨digits ++ List.replicate (least + 1 - digits.length) '0', [],
        parts_without_fraction allDigits notEmpty leading ?_, fun wholeMark => ?_⟩
      · rw [← isValue]
        congr 2
        omega
      · rw [if_pos fits, if_pos rfl]
    · refine ⟨digits.take (least + 1), digits.drop (least + 1),
        parts_among allDigits leading (by omega) (by omega) (by exact_mod_cast isValue),
        fun wholeMark => ?_⟩
      have goesOn : digits.drop (least + 1) ≠ [] := by
        rw [ne_eq, List.drop_eq_nil_iff]
        omega
      rw [if_neg fits, if_neg goesOn]

theorem shortest_of_zero (isZero : number.code = 0) : shortest tie number = ⟨0, 0⟩ := by
  simp only [shortest, isZero, if_true]

/-- The same for every number; zero is a digit without a fraction. -/
theorem exists_parts (number : Binary64) :
    ∃ whole fraction, Parts whole fraction (shortest tie number).value ∧ ∀ wholeMark,
      Spelling.positional wholeMark (shortest tie number).digits (shortest tie number).exponent =
        whole ++ if fraction = [] then wholeMark else '.' :: fraction := by
  rcases Nat.eq_zero_or_pos number.code with isZero | positive
  · rw [shortest_of_zero tie isZero]
    refine ⟨['0'], [], ⟨whole_zero, by simp [Digits], by simp [Decimal.value, ofDigits]⟩, ?_⟩
    exact fun _ => rfl
  · exact exists_parts_of_pos tie positive

theorem yields_positional (number : Binary64) (ends : NumberEnds rest) :
    Yields (Scanner.number number.negative)
      (Spelling.positional ['.', '0'] (shortest tie number).digits (shortest tie number).exponent)
      rest (.float number) := by
  rcases exists_parts tie number with ⟨whole, fraction, parts, isText⟩
  rw [isText]
  by_cases isWhole : fraction = []
  · -- A whole number has a zero after its point.
    subst isWhole
    rw [if_pos rfl]
    refine yields_point tie parts.isWhole whole_zero.digits nofun ends ?_
    have noDigits : ofDigits ['0'] = 0 := rfl
    rw [← parts.same, List.append_nil, ofDigits_append, noDigits]
    norm_num
    ring
  · rw [if_neg isWhole]
    exact yields_point tie parts.isWhole parts.digits isWhole ends parts.same

theorem yields_scientific (positive : 0 < number.code) (ends : NumberEnds rest) :
    Yields (Scanner.number number.negative)
      (Spelling.scientific (shortest tie number).digits (shortest tie number).exponent)
      rest (.float number) := by
  have small := natAbs_exponent_le tie number
  obtain ⟨allDigits, notEmpty, leading, isValue⟩ := shortest_digits tie positive
  generalize (shortest tie number).digits = digits at *
  generalize (shortest tie number).exponent = exponent at *
  obtain ⟨digit, fraction, rfl⟩ := List.exists_cons_of_ne_nil notEmpty
  have bothDigits : Digits [digit] ∧ Digits fraction := digits_append.mp allDigits
  have isWhole : Whole [digit] := whole_of_leading bothDigits.1 nofun leading
  have isText : Spelling.scientific (digit :: fraction) exponent =
      [digit] ++ (pointChars fraction ++
        'e' :: signChar (exponent < 0) :: Nat.toDigits 10 exponent.natAbs) := by
    cases fraction <;> simp [Spelling.scientific, pointChars, signChar]
  rw [isText]
  refine yields_power tie isWhole bothDigits.2 ends small ?_
  rw [← isValue]
  congr 2
  simp only [List.length_cons]
  omega

end Magnitude

/-- The text of a number in data without its sign. -/
def magnitudeChars (number : Binary64) : List Char :=
  let decimal := shortest .toEven number
  if Spelling.data.isPositional decimal.exponent then
    Spelling.positional ['.', '0'] decimal.digits decimal.exponent
  else Spelling.scientific decimal.digits decimal.exponent

theorem write_eq (number : Binary64) :
    Spelling.data.write number =
      if number.negative then '-' :: magnitudeChars number else magnitudeChars number :=
  rfl

/-- A finite number is read back from the way it is written, the sign of zero included. -/
theorem yields_magnitudeChars (number : Binary64) {rest : List Char} (ends : NumberEnds rest) :
    Yields (Scanner.number number.negative) (magnitudeChars number) rest (.float number) := by
  by_cases isPositional : Spelling.data.isPositional (shortest .toEven number).exponent = true
  · simp only [magnitudeChars, if_pos isPositional]
    exact yields_positional .toEven number ends
  · have positive : 0 < number.code := by
      rcases Nat.eq_zero_or_pos number.code with isZero | positive
      · rw [shortest_of_zero .toEven isZero] at isPositional
        exact absurd rfl isPositional
      · exact positive
    simp only [magnitudeChars, if_neg isPositional]
    exact yields_scientific .toEven positive ends

end Wireframe.Json
