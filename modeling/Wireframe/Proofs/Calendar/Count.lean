import Wireframe.Calendar.Timestamp

/-!
Contract: which counts of milliseconds name a timestamp, and which one.

Owns:
- the leap seconds among the timestamps;
- the range of the counts, from the first to the last millisecond of the years 0
  to 9999;
- what the count of a timestamp names: the timestamp itself, or the instant a
  second after the leap second that it is.

Does not own: the texts of timestamps.
-/

namespace Wireframe.Calendar.Timestamp

/-- The count of the first millisecond of year 0. -/
def firstMillis : Int := -62167219200000

/-- The count of the last millisecond of year 9999. -/
def lastMillis : Int := 253402300799999

/-- A leap second, which is held as the last second of its minute. -/
def IsLeap (timestamp : Timestamp) : Prop :=
  1000 ≤ timestamp.milli

instance (timestamp : Timestamp) : Decidable timestamp.IsLeap :=
  inferInstanceAs (Decidable (1000 ≤ timestamp.milli))

theorem ext_of_fields {left right : Timestamp} (second : left.second = right.second)
    (milli : left.milli = right.milli) : left = right := by
  cases left
  cases right
  simp_all

/-- A count names the second and the millisecond that make it up. -/
theorem ofMillis?_eq_some_iff {count : Int} {timestamp : Timestamp} :
    ofMillis? count = some timestamp ↔ ¬ timestamp.IsLeap ∧ timestamp.millis = count := by
  have second_lt := timestamp.second_lt
  unfold IsLeap millis ofMillis?
  simp only
  split
  · rename_i early
    simp only [reduceCtorEq, false_iff, not_and]
    omega
  · split
    · rename_i notEarly inRange
      rw [Option.some_inj]
      constructor
      · rintro rfl
        simp only
        omega
      · rintro ⟨ordinary, counted⟩
        apply ext_of_fields <;> simp only <;> omega
    · rename_i notEarly late
      simp only [reduceCtorEq, false_iff, not_and]
      omega

theorem exists_ofMillis?_iff {count : Int} :
    (∃ timestamp, ofMillis? count = some timestamp) ↔
      firstMillis ≤ count ∧ count ≤ lastMillis := by
  have first : firstMillis = -(secondsBefore1970 * 1000 : Nat) := by decide
  have last : lastMillis = (secondLimit * 1000 : Nat) - (secondsBefore1970 * 1000 : Nat) - 1 := by
    decide
  constructor
  · rintro ⟨timestamp, named⟩
    have second_lt := timestamp.second_lt
    obtain ⟨ordinary, counted⟩ := ofMillis?_eq_some_iff.mp named
    unfold IsLeap at ordinary
    unfold millis at counted
    omega
  · rintro ⟨notEarly, notLate⟩
    unfold ofMillis?
    simp only
    rw [if_neg (by omega), dif_pos (by omega)]
    exact ⟨_, rfl⟩

/-- The count of a leap second names the instant a second later, if year 9999 is not
over by then. -/
theorem ofMillis?_millis_of_isLeap {timestamp : Timestamp} (leap : timestamp.IsLeap) :
    (ofMillis? timestamp.millis).map (fun named => (named.second, named.milli)) =
      if timestamp.second + 1 < secondLimit then
        some (timestamp.second + 1, timestamp.milli - 1000)
      else none := by
  have milli_lt := timestamp.milli_lt
  unfold IsLeap at leap
  have whole : (timestamp.millis + secondsBefore1970 * 1000).toNat =
      (timestamp.second + 1) * 1000 + (timestamp.milli - 1000) := by
    unfold millis
    omega
  have second : ((timestamp.second + 1) * 1000 + (timestamp.milli - 1000)) / 1000 =
      timestamp.second + 1 := by omega
  unfold ofMillis?
  simp only
  rw [if_neg (by unfold millis; omega)]
  simp only [whole, second]
  split
  · simp only [Option.map_some, Option.some_inj, Prod.mk.injEq, true_and]
    omega
  · rfl

end Wireframe.Calendar.Timestamp
