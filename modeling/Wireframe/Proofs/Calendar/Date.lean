import Mathlib.Algebra.Ring.Nat
import Wireframe.Calendar.Date

/-!
Contract: day numbers name the dates of the years 0 to 9999 one to one.

Owns:
- the year that a day number falls into, and the month within the year;
- `Date.dayNumber_ofDayNumber` and the validity of `Date.ofDayNumber`.
-/

namespace Wireframe.Calendar

/-- The days of the years 0 to 9999. -/
def dayLimit : Nat := 3652425

/-- The first day of a year stands within a day of where the mean length of a
year puts it. -/
theorem daysBeforeYear_bounds (year : Nat) :
    146097 * year ≤ 400 * daysBeforeYear year + 396 ∧
      400 * daysBeforeYear year ≤ 146097 * year + 699 := by
  unfold daysBeforeYear
  omega

/-- A day number lies between the first days of its year and of the next. -/
theorem yearOfDay_spec (day : Nat) (inRange : day < dayLimit) :
    daysBeforeYear (yearOfDay day) ≤ day ∧ day < daysBeforeYear (yearOfDay day + 1) ∧
      yearOfDay day ≤ 9999 := by
  unfold dayLimit at inRange
  unfold yearOfDay
  simp only
  generalize chosen : day * 400 / 146097 = estimate
  have lower : 146097 * estimate ≤ 400 * day := by omega
  have upper : 400 * day < 146097 * (estimate + 1) := by omega
  split
  · rename_i early
    obtain ⟨previous, rfl⟩ : ∃ previous, estimate = previous + 1 := by
      cases estimate with
      | zero => exact absurd early (by simp [daysBeforeYear])
      | succ previous => exact ⟨previous, rfl⟩
    have started := (daysBeforeYear_bounds previous).2
    rw [Nat.add_sub_cancel]
    omega
  · rename_i notEarly
    split
    · rename_i late
      have next := (daysBeforeYear_bounds (estimate + 1 + 1)).1
      have started := (daysBeforeYear_bounds (estimate + 1)).1
      have fourDigits : estimate ≠ 9999 := by
        rintro rfl
        have whole : daysBeforeYear (9999 + 1) = 3652425 := by decide
        omega
      omega
    · omega

theorem daysBeforeYear_succ (year : Nat) :
    daysBeforeYear (year + 1) = daysBeforeYear year + (monthLengths year).sum := by
  have fourth : (year + 1 + 3) / 4 = (year + 3) / 4 + if year % 4 = 0 then 1 else 0 := by
    split <;> omega
  have hundredth :
      (year + 1 + 99) / 100 = (year + 99) / 100 + if year % 100 = 0 then 1 else 0 := by
    split <;> omega
  have fourHundredth :
      (year + 1 + 399) / 400 = (year + 399) / 400 + if year % 400 = 0 then 1 else 0 := by
    split <;> omega
  have months : (monthLengths year).sum = 337 + if isLeapYear year then 29 else 28 := by
    simp only [monthLengths, List.sum_cons, List.sum_nil]
    omega
  have notMore : (year + 99) / 100 ≤ 365 * year + (year + 3) / 4 := by omega
  unfold daysBeforeYear
  rw [months, fourth, hundredth, fourHundredth]
  generalize (year + 3) / 4 = fourths at notMore ⊢
  generalize (year + 99) / 100 = hundredths at notMore ⊢
  generalize (year + 399) / 400 = fourHundredths
  have leap : isLeapYear year = true ↔ year % 4 = 0 ∧ (year % 100 ≠ 0 ∨ year % 400 = 0) := by
    simp [isLeapYear]
  have century : year % 400 = 0 → year % 100 = 0 := by omega
  have fourthCentury : year % 100 = 0 → year % 4 = 0 := by omega
  by_cases isLeap : isLeapYear year = true
  · obtain ⟨divisible, exception⟩ := leap.mp isLeap
    rw [if_pos isLeap, if_pos divisible]
    split <;> split <;> omega
  · have ordinary : ¬ (year % 4 = 0 ∧ (year % 100 ≠ 0 ∨ year % 400 = 0)) :=
      fun condition => isLeap (leap.mpr condition)
    rw [if_neg isLeap]
    split <;> split <;> split <;> omega

/-- The month and the day that a day of the year falls into: the months before
it are over, and the day is one of the month. -/
theorem splitMonths_spec (lengths : List Nat) (month dayOfYear : Nat)
    (inYear : dayOfYear < lengths.sum) :
    ∃ passed length, splitMonths month dayOfYear lengths =
        (month + passed, dayOfYear - (lengths.take passed).sum + 1) ∧
      lengths[passed]? = some length ∧ (lengths.take passed).sum ≤ dayOfYear ∧
      dayOfYear < (lengths.take passed).sum + length := by
  induction lengths generalizing month dayOfYear with
  | nil => exact absurd inYear (Nat.not_lt_zero _)
  | cons first rest inductionHypothesis =>
      unfold splitMonths
      split
      · rename_i inFirst
        exact ⟨0, first, by simp, rfl, by simp, by simpa using inFirst⟩
      · rename_i pastFirst
        have inRest : dayOfYear - first < rest.sum := by
          rw [List.sum_cons] at inYear
          omega
        obtain ⟨passed, length, split, found, passedOver, within⟩ :=
          inductionHypothesis (month + 1) (dayOfYear - first) inRest
        refine ⟨passed + 1, length, ?_, by simpa using found, ?_, ?_⟩
        · rw [split, List.take_succ_cons, List.sum_cons]
          congr 1 <;> omega
        · rw [List.take_succ_cons, List.sum_cons]
          omega
        · rw [List.take_succ_cons, List.sum_cons]
          omega

private theorem foldl_add_eq_sum (lengths : List Nat) (start : Nat) :
    lengths.foldl (· + ·) start = start + lengths.sum := by
  induction lengths generalizing start with
  | nil => rfl
  | cons first rest inductionHypothesis =>
      rw [List.foldl_cons, inductionHypothesis, List.sum_cons, Nat.add_assoc]

theorem daysBeforeMonth_eq_sum (year month : Nat) :
    daysBeforeMonth year month = ((monthLengths year).take (month - 1)).sum := by
  rw [daysBeforeMonth, foldl_add_eq_sum, Nat.zero_add]

theorem length_monthLengths (year : Nat) : (monthLengths year).length = 12 := rfl

theorem le_of_mem_monthLengths {year length : Nat} (isMonth : length ∈ monthLengths year) :
    length ≤ 31 := by
  unfold monthLengths at isMonth
  simp only [List.mem_cons, List.not_mem_nil, or_false] at isMonth
  split at isMonth <;> omega

namespace Date

/-- What the date of a day number is: an existing date with that number. -/
theorem ofDayNumber_spec (day : Nat) (inRange : day < dayLimit) :
    (ofDayNumber day).isValid = true ∧ (ofDayNumber day).dayNumber = day ∧
      (ofDayNumber day).year ≤ 9999 ∧ (ofDayNumber day).month ≤ 12 ∧
      (ofDayNumber day).day ≤ 31 := by
  obtain ⟨yearStarted, yearNotOver, fourDigits⟩ := yearOfDay_spec day inRange
  have inYear : day - daysBeforeYear (yearOfDay day) <
      (monthLengths (yearOfDay day)).sum := by
    rw [daysBeforeYear_succ] at yearNotOver
    omega
  obtain ⟨passed, length, split, found, passedOver, within⟩ :=
    splitMonths_spec (monthLengths (yearOfDay day)) 1 _ inYear
  have date : ofDayNumber day = ⟨yearOfDay day, 1 + passed,
      day - daysBeforeYear (yearOfDay day) -
        ((monthLengths (yearOfDay day)).take passed).sum + 1⟩ := by
    simp only [ofDayNumber, split]
  have lengthLe : length ≤ 31 := le_of_mem_monthLengths (List.mem_of_getElem? found)
  have passedLt : passed < 12 := by
    rw [← length_monthLengths (yearOfDay day)]
    exact (List.getElem?_eq_some_iff.mp found).1
  rw [date]
  refine ⟨?_, ?_, fourDigits, by simp only; omega, by simp only; omega⟩
  · simp only [isValid, Nat.add_sub_cancel_left, found, Option.any_some, Bool.and_eq_true,
      decide_eq_true_eq]
    omega
  · simp only [dayNumber, daysBeforeMonth_eq_sum, Nat.add_sub_cancel_left,
      Nat.add_sub_cancel]
    omega

end Date

end Wireframe.Calendar
