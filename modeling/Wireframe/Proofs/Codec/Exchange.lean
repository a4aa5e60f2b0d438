import Wireframe.Codec.Record

/-!
Contract: what a record makes of an object in which one member's value is exchanged.

Owns:
- `Fields.ReadSame`, two values that every member of a record which answers to a key
  decodes to the same;
- `decode_record_exchange`, the same outcome for an object with either value.

Refusals included: a value keeps its place in the object.
-/

namespace Wireframe.Codec

open Json

variable {before after : List (String × Value)} {key : String} {left right : Value}

namespace Field

variable {α : Type} {field : Field α}

/-- The values given for a member: those before a place, the one there, and those after. -/
theorem given_append (field : Field α) (before after : List (String × Value)) (key : String) :
    ∃ earlier later, ∀ value, field.given (before ++ (key, value) :: after) =
      earlier ++ (if field.answersTo key then [(before.length, value)] else []) ++ later := by
  refine ⟨field.given before, (after.zipIdx (before.length + 1)).filterMap fun entry =>
    if field.answersTo entry.1.1 then some (entry.2, entry.1.2) else none, fun value => ?_⟩
  unfold given
  rw [List.zipIdx_append, List.zipIdx_cons, List.filterMap_append, List.filterMap_cons,
    Nat.zero_add]
  by_cases answers : field.answersTo key = true
  · simp [answers]
  · simp [answers]

/-- A member is found alike if it decodes both values to the same. -/
theorem find_exchange
    (same : field.answersTo key = true → field.codec.decode left = field.codec.decode right) :
    field.find (before ++ (key, left) :: after) =
      field.find (before ++ (key, right) :: after) := by
  obtain ⟨earlier, later, given⟩ := field.given_append before after key
  unfold find
  rw [given, given]
  by_cases answers : field.answersTo key = true
  · rw [if_pos answers, if_pos answers]
    -- Behind another value given for the member, a value counts by its place alone.
    rcases earlier with _ | ⟨⟨place, first⟩, others⟩
    · simp [same answers]
    · simp only [List.cons_append]
      cases field.codec.decode first with
      | error error => rfl
      | ok decoded => cases others <;> rfl
  · rw [if_neg answers, if_neg answers]

end Field

/-- Every member that answers to a key decodes both values to the same. -/
def Fields.ReadSame {γ : Type} (key : String) (left right : Value) : Fields γ → Prop
  | .nil => True
  | .cons head tail =>
      (head.answersTo key = true → head.codec.decode left = head.codec.decode right) ∧
        tail.ReadSame key left right

theorem Fields.find_exchange {γ : Type} {fields : Fields γ}
    (same : fields.ReadSame key left right) :
    fields.find (before ++ (key, left) :: after) =
      fields.find (before ++ (key, right) :: after) := by
  induction fields with
  | nil => rfl
  | cons head tail inductionHypothesis =>
      rw [find, find, Field.find_exchange same.1, inductionHypothesis same.2]

theorem decode_record_exchange {α γ : Type} {label : String} {fields : Fields γ}
    {build : γ → α} {split : α → γ} (same : fields.ReadSame key left right) :
    (record label fields build split).decode (.object (before ++ (key, left) :: after)) =
      (record label fields build split).decode (.object (before ++ (key, right) :: after)) := by
  simp only [record, decodeFields, Fields.find_exchange same]

end Wireframe.Codec
