import Mathlib.Data.List.TakeWhile
import Wireframe.Calendar.Reading
import Wireframe.Proofs.Calendar.Date

/-!
Contract: what the readers of dates and times make of padded numbers.

Does not own: whole texts, and numbers of other widths.
-/

namespace Wireframe.Calendar

/-! ### Padded numbers -/

theorem toNat_of_isDigit {char : Char} (isDigit : char.isDigit = true) :
    48 ≤ char.toNat ∧ char.toNat ≤ 57 := by
  simpa [Char.isDigit, UInt32.le_iff_toNat_le] using isDigit

theorem isDigit_of_mem_padded {width value : Nat} {char : Char}
    (isMember : char ∈ padded width value) : char.isDigit = true := by
  unfold padded at isMember
  rcases List.mem_append.mp isMember with zero | digit
  · rw [List.eq_of_mem_replicate zero]
    rfl
  · exact Nat.isDigit_of_mem_toDigits (by decide) (by decide) digit

theorem length_padded {width value : Nat} (positive : 0 < width)
    (fits : value < 10 ^ width) : (padded width value).length = width := by
  have short := (Nat.length_toDigits_le_iff (by decide) positive).mpr fits
  unfold padded
  rw [List.length_append, List.length_replicate]
  omega

namespace Reading

theorem spelled_eq_ofDigitChars (digits : List Char) :
    spelled digits = Nat.ofDigitChars 10 digits 0 := rfl

theorem spelled_padded (width value : Nat) : spelled (padded width value) = value := by
  rw [spelled_eq_ofDigitChars, padded, Nat.ofDigitChars_append,
    Nat.ofDigitChars_replicate_zero, Nat.mul_zero, Nat.ofDigitChars_ten_toDigits]

/-! ### Readers at the front of a text -/

/-- A reader that succeeds hands its value and the rest on. -/
theorem bind_eq {α β : Type} {reader : Reading α} {next : α → Reading β}
    {chars rest : List Char} {value : α} (read : reader chars = some (value, rest)) :
    (reader >>= next) chars = next value rest := by
  change (reader chars >>= fun result => next result.1 result.2) = _
  rw [read]
  rfl

theorem exactly_append {count : Nat} {digits : List Char} (rest : List Char)
    (length : digits.length = count) (positive : 0 < count)
    (allDigits : ∀ char ∈ digits, char.isDigit = true) :
    exactly count (digits ++ rest) = some (spelled digits, rest) := by
  have taken : ((digits ++ rest).take count).takeWhile Char.isDigit = digits := by
    rw [List.take_left' length]
    exact List.takeWhile_eq_self_iff.mpr allDigits
  have nonempty : digits.isEmpty = false := by
    cases digits with
    | nil => exact absurd positive (by simp [← length])
    | cons head tail => rfl
  have read : Reading.digits count (digits ++ rest) = some (digits, rest) := by
    unfold Reading.digits
    simp only [taken, nonempty, List.drop_left]
    rfl
  unfold exactly
  rw [bind_eq read, if_pos length]
  rfl

theorem exactly_padded {width value : Nat} (rest : List Char) (positive : 0 < width)
    (fits : value < 10 ^ width) :
    exactly width (padded width value ++ rest) = some (value, rest) := by
  rw [exactly_append rest (length_padded positive fits) positive
    fun _ => isDigit_of_mem_padded, spelled_padded]

theorem charWhere_cons {test : Char → Bool} {first : Char} (rest : List Char)
    (passes : test first = true) : charWhere test (first :: rest) = some ((), rest) := by
  simp [charWhere, passes]

theorem char_cons (expected : Char) (rest : List Char) :
    char expected (expected :: rest) = some ((), rest) :=
  charWhere_cons rest (by simp)

/-- Three digits after a point are milliseconds. -/
theorem fraction_padded {milli : Nat} (rest : List Char) (fits : milli < 1000)
    (ends : ∀ first ∈ rest.head?, first.isDigit = false) :
    fraction ('.' :: (padded 3 milli ++ rest)) = some (milli * 1000000, rest) := by
  have allDigits : ∀ char ∈ padded 3 milli, char.isDigit = true :=
    fun _ => isDigit_of_mem_padded
  have stops : rest.takeWhile Char.isDigit = [] ∧ rest.dropWhile Char.isDigit = rest := by
    cases rest with
    | nil => exact ⟨rfl, rfl⟩
    | cons first tail =>
        have noDigit := ends first rfl
        simp [noDigit]
  have taken : (padded 3 milli ++ rest).takeWhile Char.isDigit = padded 3 milli := by
    rw [List.takeWhile_append_of_pos allDigits, stops.1, List.append_nil]
  have dropped : (padded 3 milli ++ rest).dropWhile Char.isDigit = rest := by
    rw [List.dropWhile_append_of_pos allDigits, stops.2]
  have length : (padded 3 milli).length = 3 := length_padded (by decide) fits
  have nonempty : (padded 3 milli).isEmpty = false := by
    rw [List.isEmpty_eq_false_iff, ← List.length_pos_iff, length]
    decide
  have filled : spelled ((padded 3 milli ++ List.replicate 9 '0').take 9) =
      milli * 1000000 := by
    rw [List.take_append, length, List.take_of_length_le (by omega), List.take_replicate,
      spelled_eq_ofDigitChars, Nat.ofDigitChars_append, ← spelled_eq_ofDigitChars,
      spelled_padded, Nat.ofDigitChars_replicate_zero, Nat.mul_comm]
    rfl
  unfold fraction
  simp only [taken, dropped, nonempty, filled]
  rfl

end Reading

end Wireframe.Calendar
