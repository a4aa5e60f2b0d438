import Wireframe.Proofs.Json.Order
import Wireframe.Proofs.Json.RoundTrip

/-!
Contract: compact text determines the value it was printed from.

Owns:
- values in their compact form, which are read with their keys in order;
- injectivity of compact and of canonical text, up to the order of keys.

Reading serves as the inverse of printing here. No nesting limit is involved, since
a scanner with enough depth for both texts exists.
-/

namespace Wireframe.Json

open Scanner

/-- A text is read as one value at most. -/
theorem Yields.unique {ε α : Type} {scanner : Scanner ε α} {chars rest : List Char}
    {value other : α} (reads : Yields scanner chars rest value)
    (readsToo : Yields scanner chars rest other) : value = other := by
  obtain ⟨next, first⟩ := reads 0
  obtain ⟨otherNext, second⟩ := readsToo 0
  exact congrArg Prod.fst (Except.ok.inj (first.symm.trans second))

namespace Value

theorem compactItems_eq_map (items : List Value) :
    compactItems items = items.map compactChars := by
  induction items with
  | nil => rfl
  | cons item items inductionHypothesis =>
      rw [compactItems, inductionHypothesis, List.map_cons]

theorem compactMembers_eq_map (members : List (String × Value)) :
    compactMembers members =
      members.map fun member => memberText [] member.1 member.2.compactChars := by
  induction members with
  | nil => rfl
  | cons member members inductionHypothesis =>
      obtain ⟨key, value⟩ := member
      rw [compactMembers, inductionHypothesis, List.map_cons]
      rfl

end Value

/-- The parts between two brackets are read one after another. -/
theorem repeats_compactBlock {α : Type} {step : Bool → Scanner Failure (Option α)}
    {texts : List (List Char)} {values : List α} {closing : Char} {rest : List Char}
    (separates : isSeparator closing = true)
    (stops : ∀ first, Yields (step first) [] (closing :: rest) none)
    (parts : List.Forall₂ (Part step) texts values) :
    Repeats step (closing :: rest) true (separated [','] texts) values := by
  cases parts with
  | nil => exact .stop (stops true)
  | cons part parts =>
      have ends : NumberEnds ([] ++ closing :: rest) := numberEnds_cons separates
      simpa using repeats_separated blanks_nil ends (stops false) part parts

/-- A compact value is read with its keys in order, given enough depth. -/
theorem readsAs_compact (value : Value) {depth : Nat} (fits : value.depth ≤ depth) :
    ReadsAs (Scanner.value depth) value.compactChars value.sortKeys := by
  induction value using Value.induction generalizing depth with
  | null => exact readsAs_null depth
  | bool flag => exact readsAs_bool depth flag
  | integer number => exact readsAs_integer depth number
  | float number => exact readsAs_float depth number
  | string text => exact readsAs_string depth text
  | array items inductionHypothesis =>
      have positive := Value.depth_array_pos items
      obtain ⟨depth, rfl⟩ : ∃ smaller, depth = smaller + 1 := ⟨depth - 1, by omega⟩
      rw [Value.depth_array_le_succ] at fits
      have parts := parts_items fun item isMember =>
        inductionHypothesis item isMember (fits item isMember)
      rw [Value.sortKeys_array, Value.compactChars, Value.compactItems_eq_map]
      exact readsAs_list (repeats_compactBlock rfl
        (fun first => yields_listItem_stop first blanks_nil) parts)
  | object members inductionHypothesis =>
      have positive := Value.depth_object_pos members
      obtain ⟨depth, rfl⟩ : ∃ smaller, depth = smaller + 1 := ⟨depth - 1, by omega⟩
      rw [Value.depth_object_le_succ] at fits
      have parts := parts_members blanks_nil fun member isMember =>
        inductionHypothesis member isMember (fits member isMember)
      rw [Value.sortKeys_object, Value.compactChars, Value.compactMembers_eq_map]
      exact readsAs_object (repeats_compactBlock rfl
        (fun first => yields_objectMember_stop first blanks_nil) parts)

namespace Value

/-- Equal compact texts are read by one scanner, as equal values. -/
theorem sortKeys_eq_of_compact_eq {left right : Value} (same : left.compact = right.compact) :
    left.sortKeys = right.sortKeys := by
  have sameChars : left.compactChars = right.compactChars := String.ofList_injective same
  have readsLeft := (readsAs_compact left (Nat.le_max_left left.depth right.depth)).reads
    blanks_nil numberEnds_nil
  have readsRight := (readsAs_compact right (Nat.le_max_right left.depth right.depth)).reads
    blanks_nil numberEnds_nil
  rw [← sameChars] at readsRight
  exact readsLeft.unique readsRight

theorem sortKeys_sortKeys (value : Value) : value.sortKeys.sortKeys = value.sortKeys :=
  sortKeys_of_ordered (ordered_sortKeys value)

theorem canonical_eq_iff {left right : Value} :
    left.canonical = right.canonical ↔ left.sortKeys = right.sortKeys := by
  constructor
  · intro same
    rw [← left.sortKeys_sortKeys, ← right.sortKeys_sortKeys]
    exact sortKeys_eq_of_compact_eq same
  · intro same
    rw [canonical, same, canonical]

/-- Canonical text loses nothing of a value whose keys are in order. -/
theorem eq_of_canonical_eq {left right : Value} (leftOrdered : left.Ordered)
    (rightOrdered : right.Ordered) (same : left.canonical = right.canonical) : left = right := by
  rw [canonical_eq_iff, sortKeys_of_ordered leftOrdered, sortKeys_of_ordered rightOrdered] at same
  exact same

end Value

end Wireframe.Json
