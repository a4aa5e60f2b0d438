import Mathlib.Algebra.Order.BigOperators.Group.List
import Mathlib.Algebra.Order.Group.Nat
import Wireframe.Proofs.Calendar.Count
import Wireframe.Proofs.Calendar.Timestamp

/-!
Contract: the texts of timestamps are in the order of the timestamps.

Owns:
- numbers of one width, compared as texts and as numbers;
- existing dates, compared by their fields and by their day numbers;
- `Timestamp.text_lt_text_iff`, for timestamps that are no leap seconds.

Does not own: leap seconds, whose count is the count of another instant.
-/

namespace Wireframe.Calendar

/-! ### Numbers of one width -/

/-- Among texts of one length, what follows decides only where they are the same. -/
theorem append_lt_append_iff {left right : List Char} (sameLength : left.length = right.length)
    (leftRest rightRest : List Char) :
    left ++ leftRest < right ++ rightRest ↔
      left < right ∨ left = right ∧ leftRest < rightRest := by
  induction left generalizing right with
  | nil =>
      rw [List.eq_nil_of_length_eq_zero sameLength.symm]
      simp
  | cons first left inductionHypothesis =>
      cases right with
      | nil => cases sameLength
      | cons second right =>
          have shorter : left.length = right.length := Nat.succ.inj sameLength
          simp only [List.cons_append, List.cons_lt_cons_iff, inductionHypothesis shorter,
            List.cons.injEq]
          tauto

/-- The text that is smaller at the first difference spells the smaller number. -/
theorem ofDigitChars_lt_of_lt {left right : List Char} {low high : Nat}
    (sameLength : left.length = right.length) (leftDigits : ∀ char ∈ left, char.isDigit = true)
    (rightDigits : ∀ char ∈ right, char.isDigit = true)
    (less : low < high ∨ low = high ∧ left < right) :
    Nat.ofDigitChars 10 left low < Nat.ofDigitChars 10 right high := by
  induction left generalizing right low high with
  | nil =>
      rw [List.eq_nil_of_length_eq_zero sameLength.symm] at less ⊢
      simpa using less
  | cons first left inductionHypothesis =>
      cases right with
      | nil => cases sameLength
      | cons second right =>
          have leftDigit := toNat_of_isDigit (leftDigits first (List.mem_cons_self ..))
          have rightDigit := toNat_of_isDigit (rightDigits second (List.mem_cons_self ..))
          rw [Nat.ofDigitChars_cons, Nat.ofDigitChars_cons]
          apply inductionHypothesis (Nat.succ.inj sameLength)
            (fun char isMember => leftDigits char (List.mem_cons_of_mem _ isMember))
            (fun char isMember => rightDigits char (List.mem_cons_of_mem _ isMember))
          have zero : '0'.toNat = 48 := rfl
          rw [zero]
          rcases less with less | ⟨rfl, less⟩
          · left
            omega
          · rcases List.cons_lt_cons_iff.mp less with first_lt | ⟨rfl, rest_lt⟩
            · have smaller : first.toNat < second.toNat := first_lt
              left
              omega
            · exact Or.inr ⟨rfl, rest_lt⟩

theorem padded_inj {width left right : Nat} :
    padded width left = padded width right ↔ left = right := by
  constructor
  · intro same
    simpa only [Reading.spelled_padded] using congrArg Reading.spelled same
  · rintro rfl
    rfl

theorem padded_lt_padded_of_lt {width left right : Nat} (positive : 0 < width)
    (leftFits : left < 10 ^ width) (rightFits : right < 10 ^ width)
    (less : padded width left < padded width right) : left < right := by
  have sameLength : (padded width left).length = (padded width right).length := by
    rw [length_padded positive leftFits, length_padded positive rightFits]
  have spelled : Reading.spelled (padded width left) < Reading.spelled (padded width right) :=
    ofDigitChars_lt_of_lt sameLength (fun _ => isDigit_of_mem_padded)
      (fun _ => isDigit_of_mem_padded) (Or.inr ⟨rfl, less⟩)
  rwa [Reading.spelled_padded, Reading.spelled_padded] at spelled

theorem padded_lt_padded_iff {width left right : Nat} (positive : 0 < width)
    (leftFits : left < 10 ^ width) (rightFits : right < 10 ^ width) :
    padded width left < padded width right ↔ left < right := by
  refine ⟨padded_lt_padded_of_lt positive leftFits rightFits, fun less => ?_⟩
  by_contra notLess
  rcases List.le_iff_lt_or_eq.mp (List.not_lt.mp notLess) with greater | same
  · have := padded_lt_padded_of_lt positive rightFits leftFits greater
    omega
  · have := padded_inj.mp same
    omega

/-- A field of a text decides, or it is the same and what follows its mark decides. -/
theorem field_lt_iff {width left right : Nat} {mark : Char} {leftRest rightRest : List Char}
    (positive : 0 < width) (leftFits : left < 10 ^ width) (rightFits : right < 10 ^ width) :
    padded width left ++ mark :: leftRest < padded width right ++ mark :: rightRest ↔
      left < right ∨ left = right ∧ leftRest < rightRest := by
  have sameLength : (padded width left).length = (padded width right).length := by
    rw [length_padded positive leftFits, length_padded positive rightFits]
  rw [append_lt_append_iff sameLength, padded_lt_padded_iff positive leftFits rightFits,
    padded_inj, List.cons_lt_cons_self]

/-! ### Dates -/

theorem daysBeforeYear_mono {early late : Nat} (le : early ≤ late) :
    daysBeforeYear early ≤ daysBeforeYear late := by
  induction le with
  | refl => exact Nat.le_refl _
  | step _ inductionHypothesis =>
      rw [daysBeforeYear_succ]
      omega

namespace Date

/-- The one date comes before the other in the order of year, month and day. -/
def Precedes (early late : Date) : Prop :=
  early.year < late.year ∨ early.year = late.year ∧
    (early.month < late.month ∨ early.month = late.month ∧ early.day < late.day)

variable {early late : Date}

/-- The day number of an existing date lies within its month. -/
theorem dayNumber_bounds {date : Date} (valid : date.isValid = true) :
    daysBeforeYear date.year + ((monthLengths date.year).take (date.month - 1)).sum ≤
        date.dayNumber ∧
      date.dayNumber <
        daysBeforeYear date.year + ((monthLengths date.year).take date.month).sum := by
  simp only [isValid, Bool.and_eq_true, decide_eq_true_eq, Option.any_eq_true] at valid
  rcases valid with ⟨⟨monthCounts, dayCounts⟩, length, found, inMonth⟩
  obtain ⟨within, isLength⟩ := List.getElem?_eq_some_iff.mp found
  have months : ((monthLengths date.year).take date.month).sum =
      ((monthLengths date.year).take (date.month - 1)).sum + length := by
    rw [← isLength, ← List.sum_take_succ _ _ within, Nat.sub_add_cancel monthCounts]
  unfold dayNumber
  rw [daysBeforeMonth_eq_sum, months]
  omega

theorem dayNumber_lt_of_precedes (earlyValid : early.isValid = true)
    (lateValid : late.isValid = true) (precedes : early.Precedes late) :
    early.dayNumber < late.dayNumber := by
  have earlyBounds := dayNumber_bounds earlyValid
  have lateBounds := dayNumber_bounds lateValid
  rcases precedes with year | ⟨year, month | ⟨month, day⟩⟩
  · have whole := List.sum_take_add_sum_drop (monthLengths early.year) early.month
    have next := daysBeforeYear_mono (Nat.succ_le_of_lt year)
    rw [daysBeforeYear_succ] at next
    omega
  · have passed : ((monthLengths late.year).take early.month).sum ≤
        ((monthLengths late.year).take (late.month - 1)).sum :=
      List.monotone_sum_take _ (by omega)
    rw [year] at earlyBounds
    omega
  · have dayCounts : 1 ≤ early.day := by
      simp only [isValid, Bool.and_eq_true, decide_eq_true_eq] at earlyValid
      exact earlyValid.1.2
    unfold dayNumber
    rw [year, month]
    omega

theorem precedes_iff (earlyValid : early.isValid = true) (lateValid : late.isValid = true) :
    early.Precedes late ↔ early.dayNumber < late.dayNumber := by
  refine ⟨dayNumber_lt_of_precedes earlyValid lateValid, fun less => ?_⟩
  by_contra notEarlier
  have notLater : ¬ late.Precedes early := fun precedes => by
    have := dayNumber_lt_of_precedes lateValid earlyValid precedes
    omega
  have same : early = late := by
    unfold Precedes at notEarlier notLater
    cases early
    cases late
    simp only [mk.injEq] at notEarlier notLater ⊢
    omega
  rw [same] at less
  exact Nat.lt_irrefl _ less

end Date

/-! ### Texts -/

namespace Timestamp

theorem chars_lt_chars_iff (left right : Timestamp) :
    left.chars < right.chars ↔
      left.date.Precedes right.date ∨ left.date = right.date ∧
        (left.time.hour < right.time.hour ∨ left.time.hour = right.time.hour ∧
          (left.time.minute < right.time.minute ∨ left.time.minute = right.time.minute ∧
            (left.time.second < right.time.second ∨ left.time.second = right.time.second ∧
              left.milli % 1000 < right.milli % 1000))) := by
  obtain ⟨-, -, leftYear, leftMonth, leftDay⟩ := left.date_bounds
  obtain ⟨-, -, rightYear, rightMonth, rightDay⟩ := right.date_bounds
  obtain ⟨leftHour, leftMinute, leftSecond⟩ := left.time_bounds
  obtain ⟨rightHour, rightMinute, rightSecond⟩ := right.time_bounds
  rw [chars_eq, chars_eq, field_lt_iff (by decide) (by omega) (by omega),
    field_lt_iff (by decide) (by omega) (by omega),
    field_lt_iff (by decide) (by omega) (by omega),
    field_lt_iff (by decide) (by omega) (by omega),
    field_lt_iff (by decide) (by omega) (by omega),
    field_lt_iff (by decide) (by omega) (by omega),
    field_lt_iff (by decide) (by omega) (by omega)]
  have same : left.date = right.date ↔ left.date.year = right.date.year ∧
      left.date.month = right.date.month ∧ left.date.day = right.date.day := by
    cases left.date
    cases right.date
    simp only [Date.mk.injEq]
  rw [same]
  unfold Date.Precedes
  simp only [List.lt_irrefl, and_false, or_false, and_or_left, or_assoc, and_assoc]

/-- Two times of day in the order of their hour, minute and second. -/
theorem clock_lt_iff (early late : Nat) :
    early < late ↔ early / 3600 < late / 3600 ∨ early / 3600 = late / 3600 ∧
      (early / 60 % 60 < late / 60 % 60 ∨ early / 60 % 60 = late / 60 % 60 ∧
        early % 60 < late % 60) := by
  omega

/-- Texts are in the order of seconds and milliseconds, leap seconds aside. -/
theorem chars_lt_chars_iff_of_not_isLeap {left right : Timestamp} (leftOrdinary : ¬ left.IsLeap)
    (rightOrdinary : ¬ right.IsLeap) :
    left.chars < right.chars ↔
      left.second < right.second ∨ left.second = right.second ∧ left.milli < right.milli := by
  obtain ⟨leftValid, leftDay, -⟩ := left.date_bounds
  obtain ⟨rightValid, rightDay, -⟩ := right.date_bounds
  have sameDate : left.date = right.date ↔
      left.second / secondsPerDay = right.second / secondsPerDay := by
    constructor
    · intro same
      rw [← leftDay, same, rightDay]
    · intro same
      unfold date
      rw [same]
  unfold IsLeap at leftOrdinary rightOrdinary
  rw [chars_lt_chars_iff, Date.precedes_iff leftValid rightValid, leftDay, rightDay, sameDate]
  unfold Timestamp.time secondsPerDay
  simp only
  have leftWhole : left.milli / 1000 = 0 := by omega
  have rightWhole : right.milli / 1000 = 0 := by omega
  have leftPart : left.milli % 1000 = left.milli := by omega
  have rightPart : right.milli % 1000 = right.milli := by omega
  have clock := clock_lt_iff (left.second % 86400) (right.second % 86400)
  rw [leftWhole, rightWhole, leftPart, rightPart, Nat.add_zero, Nat.add_zero]
  omega

theorem text_lt_text_iff {left right : Timestamp} (leftOrdinary : ¬ left.IsLeap)
    (rightOrdinary : ¬ right.IsLeap) : left.text < right.text ↔ left.millis < right.millis := by
  have texts : left.text < right.text ↔ left.chars < right.chars := by
    unfold text
    rw [String.lt_iff, String.toList_ofList, String.toList_ofList]
  rw [texts, chars_lt_chars_iff_of_not_isLeap leftOrdinary rightOrdinary]
  unfold IsLeap at leftOrdinary rightOrdinary
  unfold millis
  omega

end Timestamp

end Wireframe.Calendar
