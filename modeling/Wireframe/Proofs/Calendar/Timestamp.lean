import Wireframe.Proofs.Calendar.Reading

/-!
Contract: the text of a timestamp names that timestamp.

Owns:
- the fields of a text, with the widths that they have;
- `Timestamp.parse?_text`, for every timestamp, leap seconds included.

Does not own: the other texts that name a timestamp.
-/

namespace Wireframe.Calendar

/-- The fields of a timestamp's text. -/
def Timestamp.date (timestamp : Timestamp) : Date :=
  Date.ofDayNumber (timestamp.second / secondsPerDay)

/-- The time of day in a timestamp's text, a leap second as the second 60. -/
def Timestamp.time (timestamp : Timestamp) : TimeOfDay :=
  let seconds := timestamp.second % secondsPerDay
  ⟨seconds / 3600, seconds / 60 % 60, seconds % 60 + timestamp.milli / 1000,
    timestamp.milli % 1000 * 1000000⟩

namespace Timestamp

/-- The fields of the date in a text have the widths that they are written with. -/
theorem date_bounds (timestamp : Timestamp) :
    timestamp.date.isValid = true ∧
      timestamp.date.dayNumber = timestamp.second / secondsPerDay ∧
      timestamp.date.year ≤ 9999 ∧ timestamp.date.month ≤ 12 ∧ timestamp.date.day ≤ 31 := by
  have second_lt := timestamp.second_lt
  apply Date.ofDayNumber_spec
  unfold secondLimit secondsPerDay at second_lt
  unfold dayLimit secondsPerDay
  omega

/-- A text field by field. -/
theorem chars_eq (timestamp : Timestamp) :
    timestamp.chars =
      padded 4 timestamp.date.year ++ '-' :: (padded 2 timestamp.date.month ++
        '-' :: (padded 2 timestamp.date.day ++ 'T' :: (padded 2 timestamp.time.hour ++
          ':' :: (padded 2 timestamp.time.minute ++ ':' :: (padded 2 timestamp.time.second ++
            '.' :: (padded 3 (timestamp.milli % 1000) ++ ['Z'])))))) := by
  unfold chars
  simp only [List.append_assoc, List.cons_append]
  rfl

/-- The time in the text exists, and it is the time of the timestamp. -/
theorem time_spec (timestamp : Timestamp) :
    timestamp.time.isValid = true ∧
      timestamp.time.secondOfDay = timestamp.second % secondsPerDay ∧
      timestamp.time.milli = timestamp.milli := by
  have milli_lt := timestamp.milli_lt
  have leap_last := timestamp.leap_last
  have inDay : timestamp.second % secondsPerDay < 86400 := Nat.mod_lt _ (by decide)
  have sameMinute : timestamp.second % secondsPerDay % 60 = timestamp.second % 60 := by
    unfold secondsPerDay
    omega
  unfold time TimeOfDay.isValid TimeOfDay.secondOfDay TimeOfDay.milli
  simp only [Bool.and_eq_true, decide_eq_true_eq]
  generalize timestamp.second % secondsPerDay = seconds at *
  refine ⟨by omega, ?_, ?_⟩
  · by_cases leap : 1000 ≤ timestamp.milli
    · have last := leap_last leap
      omega
    · omega
  · split
    · omega
    · omega

theorem time_bounds (timestamp : Timestamp) :
    timestamp.time.hour < 24 ∧ timestamp.time.minute < 60 ∧ timestamp.time.second ≤ 60 := by
  simpa [TimeOfDay.isValid, Nat.lt_succ_iff, and_assoc] using timestamp.time_spec.1

end Timestamp

/-- The text is read back field by field. -/
theorem Reading.zoned_chars (timestamp : Timestamp) :
    Reading.zoned timestamp.chars = some ((timestamp.date, timestamp.time, 0), []) := by
  obtain ⟨-, -, year, month, day⟩ := timestamp.date_bounds
  obtain ⟨hour, minute, second⟩ := timestamp.time_bounds
  rw [Timestamp.chars_eq]
  unfold Reading.zoned
  rw [Reading.bind_eq (Reading.exactly_padded _ (by decide) (by omega)),
    Reading.bind_eq (Reading.char_cons _ _),
    Reading.bind_eq (Reading.exactly_padded _ (by decide) (by omega)),
    Reading.bind_eq (Reading.char_cons _ _),
    Reading.bind_eq (Reading.exactly_padded _ (by decide) (by omega)),
    Reading.bind_eq (Reading.charWhere_cons _ rfl),
    Reading.bind_eq (Reading.exactly_padded _ (by decide) (by omega)),
    Reading.bind_eq (Reading.char_cons _ _),
    Reading.bind_eq (Reading.exactly_padded _ (by decide) (by omega)),
    Reading.bind_eq (Reading.char_cons _ _),
    Reading.bind_eq (Reading.exactly_padded _ (by decide) (by omega)),
    Reading.bind_eq (Reading.fraction_padded _ (by omega) (by simp))]
  rfl

theorem isBlank_of_isDigit {char : Char} (isDigit : char.isDigit = true) :
    Text.isBlank char = false := by
  have bounds := toNat_of_isDigit isDigit
  unfold Text.isBlank
  simp only [Bool.or_eq_false_iff, Bool.and_eq_false_iff, decide_eq_false_iff_not,
    beq_eq_false_iff_ne]
  omega

/-- A text without blanks at its ends is left as it is. -/
theorem trim_eq_self {chars : List Char}
    (starts : ∀ first ∈ chars.head?, Text.isBlank first = false)
    (ends : ∀ last ∈ chars.getLast?, Text.isBlank last = false) :
    Text.trim chars = chars := by
  have keeps : ∀ chars : List Char, (∀ first ∈ chars.head?, Text.isBlank first = false) →
      Text.trimStart chars = chars := by
    intro chars starts
    cases chars with
    | nil => rfl
    | cons first rest =>
        rw [Text.trimStart, List.dropWhile_cons_of_neg]
        simp [starts first rfl]
  rw [Text.trim, keeps chars starts, keeps chars.reverse, List.reverse_reverse]
  rwa [List.head?_reverse]

namespace Timestamp

theorem trim_chars (timestamp : Timestamp) :
    Text.trim timestamp.chars = timestamp.chars := by
  refine trim_eq_self ?_ ?_
  · intro first isFirst
    have year :
        padded 4 (Date.ofDayNumber (timestamp.second / secondsPerDay)).year ≠ [] := by
      unfold padded
      exact List.append_ne_nil_of_right_ne_nil _ Nat.toDigits_ne_nil
    obtain ⟨digit, rest, digits⟩ := List.exists_cons_of_ne_nil year
    have same : digit = first := by
      simpa only [chars, digits, List.cons_append, List.head?_cons,
        Option.mem_some_iff] using isFirst
    rw [← same]
    exact isBlank_of_isDigit (isDigit_of_mem_padded (digits ▸ List.mem_cons_self ..))
  · intro last isLast
    simp only [chars, List.getLast?_concat, Option.mem_some_iff] at isLast
    rw [← isLast]
    decide

theorem parse?_text (timestamp : Timestamp) : parse? timestamp.text = some timestamp := by
  obtain ⟨dateValid, dayNumber, -⟩ := timestamp.date_bounds
  obtain ⟨timeValid, secondOfDay, milli⟩ := timestamp.time_spec
  have fields : Reading.zonedFields? timestamp.chars =
      some (timestamp.date, timestamp.time, 0) := by
    unfold Reading.zonedFields?
    have read : Reading.zoned.run' timestamp.chars =
        some (timestamp.date, timestamp.time, 0) := by
      change (Reading.zoned timestamp.chars).map Prod.fst = _
      rw [Reading.zoned_chars]
      rfl
    rw [read]
    simp only [dateValid, timeValid, Bool.and_self, if_true]
  have instant : timestampAt? timestamp.date timestamp.time 0 = some timestamp := by
    have whole : ((timestamp.date.dayNumber * secondsPerDay + timestamp.time.secondOfDay : Nat) :
        Int) - 0 = timestamp.second := by
      rw [dayNumber, secondOfDay, Int.sub_zero, Nat.mul_comm, Nat.div_add_mod]
    unfold timestampAt?
    rw [if_pos (by rw [dateValid, timeValid]; rfl), whole, milli, ofSecond?,
      if_neg (by omega), dif_pos (by simpa using timestamp.second_lt),
      dif_pos timestamp.milli_lt, dif_pos (by simpa using timestamp.leap_last)]
    rfl
  unfold parse? text
  rw [String.toList_ofList, trim_chars]
  simp only [fields, instant]

end Timestamp

end Wireframe.Calendar
