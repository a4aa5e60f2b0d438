import Mathlib.Data.List.Forall2
import Wireframe.Proofs.Calendar.Order

/-!
Contract: texts stand for timestamps, in one form and in their order.

Owns:
- the form of a timestamp's text, and the seconds that stand in it;
- `Timestamp.text_faithful`: form, round trip, range of the counts, and order.

Does not own: which other texts name a timestamp.
-/

namespace Wireframe.Calendar

/-! ### The form of a text -/

/-- What a character has to be; `d` stands for a digit. -/
def Fits (mark char : Char) : Prop :=
  if mark = 'd' then char.isDigit = true else char = mark

/-- A year of four digits, a month, a day, an hour, a minute and a second of two, and
three digits of milliseconds. -/
def form : List Char := "dddd-dd-ddTdd:dd:dd.dddZ".toList

def Formed (text : String) : Prop :=
  List.Forall₂ Fits form text.toList

/-- The two digits of the second in a text of that form. -/
def secondsPart (text : String) : List Char :=
  (text.toList.drop 17).take 2

theorem fits_digits {digits : List Char} (allDigits : ∀ char ∈ digits, char.isDigit = true) :
    List.Forall₂ Fits (List.replicate digits.length 'd') digits := by
  induction digits with
  | nil => exact .nil
  | cons first rest inductionHypothesis =>
      have firstFits : Fits 'd' first := by
        simpa only [Fits, if_true] using allDigits first (List.mem_cons_self ..)
      exact .cons firstFits <|
        inductionHypothesis fun char isMember => allDigits char (List.mem_cons_of_mem _ isMember)

section Field

variable {width value : Nat} (positive : 0 < width) (fits : value < 10 ^ width)

include positive fits

/-- A padded number and the mark behind it, before a part that has its form. -/
theorem fits_field {mark : Char} {marks rest : List Char} (isMark : mark ≠ 'd')
    (restFits : List.Forall₂ Fits marks rest) :
    List.Forall₂ Fits (List.replicate width 'd' ++ mark :: marks)
      (padded width value ++ mark :: rest) := by
  have markFits : Fits mark mark := by
    rw [Fits, if_neg isMark]
  have digits : List.Forall₂ Fits (List.replicate (padded width value).length 'd')
      (padded width value) := fits_digits fun _ => isDigit_of_mem_padded
  rw [length_padded positive fits] at digits
  exact List.rel_append digits (.cons markFits restFits)

theorem drop_field (mark : Char) (rest : List Char) (count : Nat) :
    (padded width value ++ mark :: rest).drop (width + (count + 1)) = rest.drop count := by
  rw [List.drop_append, length_padded positive fits, List.drop_eq_nil_of_le, List.nil_append,
    Nat.add_sub_cancel_left, List.drop_succ_cons]
  rw [length_padded positive fits]
  omega

theorem take_field (rest : List Char) :
    (padded width value ++ rest).take width = padded width value :=
  List.take_left' (length_padded positive fits)

end Field

namespace Timestamp

theorem formed_text (timestamp : Timestamp) : Formed timestamp.text := by
  obtain ⟨-, -, year, month, day⟩ := timestamp.date_bounds
  obtain ⟨hour, minute, second⟩ := timestamp.time_bounds
  have marks : form = List.replicate 4 'd' ++ '-' :: (List.replicate 2 'd' ++
      '-' :: (List.replicate 2 'd' ++ 'T' :: (List.replicate 2 'd' ++
        ':' :: (List.replicate 2 'd' ++ ':' :: (List.replicate 2 'd' ++
          '.' :: (List.replicate 3 'd' ++ ['Z'])))))) := by decide
  unfold Formed text
  rw [String.toList_ofList, chars_eq, marks]
  exact fits_field (by decide) (by omega) (by decide) <|
    fits_field (by decide) (by omega) (by decide) <|
    fits_field (by decide) (by omega) (by decide) <|
    fits_field (by decide) (by omega) (by decide) <|
    fits_field (by decide) (by omega) (by decide) <|
    fits_field (by decide) (by omega) (by decide) <|
    fits_field (by decide) (by omega) (by decide) .nil

/-- The second that is printed is the one of the time of day. -/
theorem secondsPart_text (timestamp : Timestamp) :
    secondsPart timestamp.text = padded 2 timestamp.time.second := by
  obtain ⟨-, -, year, month, day⟩ := timestamp.date_bounds
  obtain ⟨hour, minute, second⟩ := timestamp.time_bounds
  unfold secondsPart text
  rw [String.toList_ofList, chars_eq, drop_field (by decide) (by omega) _ _ 12,
    drop_field (by decide) (by omega) _ _ 9, drop_field (by decide) (by omega) _ _ 6,
    drop_field (by decide) (by omega) _ _ 3, drop_field (by decide) (by omega) _ _ 0,
    List.drop_zero, take_field (by decide) (by omega)]

/-- A leap second is printed as the second 60, and no other timestamp is. -/
theorem secondsPart_eq_sixty_iff (timestamp : Timestamp) :
    secondsPart timestamp.text = ['6', '0'] ↔ timestamp.IsLeap := by
  have sixty : ['6', '0'] = padded 2 60 := by decide
  have milli_lt := timestamp.milli_lt
  have leap_last := timestamp.leap_last
  rw [secondsPart_text, sixty, padded_inj]
  unfold Timestamp.time secondsPerDay IsLeap
  simp only
  omega

/-- The text of a timestamp that was read has the form with a year of four digits,
prints a leap second as the second 60, and is read as the same timestamp. Exactly the
counts of the years 0 to 9999 name a timestamp; it has that count, and its text is
read as it. Leap seconds aside, texts are in the order of the counts. -/
theorem text_faithful :
    (∀ given timestamp, parse? given = some timestamp →
      Formed timestamp.text ∧
        (secondsPart timestamp.text = ['6', '0'] ↔ timestamp.IsLeap) ∧
        parse? timestamp.text = some timestamp) ∧
      (∀ count, (∃ timestamp, ofMillis? count = some timestamp) ↔
        -62167219200000 ≤ count ∧ count ≤ 253402300799999) ∧
      (∀ count timestamp, ofMillis? count = some timestamp →
        timestamp.millis = count ∧ parse? timestamp.text = some timestamp) ∧
      ∀ left right : Timestamp, ¬ left.IsLeap → ¬ right.IsLeap →
        (left.text < right.text ↔ left.millis < right.millis) := by
  refine ⟨?form, ?range, ?counts, ?order⟩
  case form =>
    intro _ timestamp _
    exact ⟨timestamp.formed_text, timestamp.secondsPart_eq_sixty_iff, timestamp.parse?_text⟩
  case range =>
    intro count
    exact exists_ofMillis?_iff
  case counts =>
    intro count timestamp named
    exact ⟨(ofMillis?_eq_some_iff.mp named).2, timestamp.parse?_text⟩
  case order =>
    intro left right leftOrdinary rightOrdinary
    exact text_lt_text_iff leftOrdinary rightOrdinary

/-- The leap second at the end of 1990, nearly over. -/
def leapOf1990 : Timestamp :=
  ⟨62829907199, 1987, by decide, by decide, by decide⟩

/-- A leap second eight hours behind universal time, and the two ends of the range. -/
theorem text_faithful_newYear :
    parse? "1990-12-31T15:59:60.9876-08:00" = some leapOf1990 ∧
      leapOf1990.text = "1990-12-31T23:59:60.987Z" ∧ Formed leapOf1990.text ∧
      leapOf1990.IsLeap ∧ secondsPart leapOf1990.text = ['6', '0'] ∧
      parse? leapOf1990.text = some leapOf1990 ∧ ∃ first last,
      ofMillis? (-62167219200000) = some first ∧ first.text = "0000-01-01T00:00:00.000Z" ∧
      ofMillis? 253402300799999 = some last ∧ last.text = "9999-12-31T23:59:59.999Z" ∧
      parse? first.text = some first ∧ parse? last.text = some last ∧
      first.text < last.text := by
  obtain ⟨forms, range, counts, order⟩ := text_faithful
  have reads : parse? "1990-12-31T15:59:60.9876-08:00" = some leapOf1990 := by
    decide +kernel
  obtain ⟨formed, sixty, readBack⟩ := forms _ _ reads
  obtain ⟨first, namedFirst⟩ := (range (-62167219200000)).mpr (by decide)
  obtain ⟨last, namedLast⟩ := (range 253402300799999).mpr (by decide)
  obtain ⟨firstCount, firstBack⟩ := counts _ _ namedFirst
  obtain ⟨lastCount, lastBack⟩ := counts _ _ namedLast
  have leap : leapOf1990.IsLeap := by decide
  have ascending : first.text < last.text := by
    have firstOrdinary := (ofMillis?_eq_some_iff.mp namedFirst).1
    have lastOrdinary := (ofMillis?_eq_some_iff.mp namedLast).1
    rw [order first last firstOrdinary lastOrdinary, firstCount, lastCount]
    decide
  have firstText : (ofMillis? (-62167219200000)).map text = some "0000-01-01T00:00:00.000Z" := by
    decide +kernel
  have lastText : (ofMillis? 253402300799999).map text = some "9999-12-31T23:59:59.999Z" := by
    decide +kernel
  rw [namedFirst] at firstText
  rw [namedLast] at lastText
  exact ⟨reads, by decide +kernel, formed, leap, sixty.mpr leap, readBack, first, last,
    namedFirst, Option.some.inj firstText, namedLast, Option.some.inj lastText, firstBack,
    lastBack, ascending⟩

end Timestamp

end Wireframe.Calendar
