import Wireframe.Proofs.Json.Order

/-!
Contract: how deep lists and objects stand inside one another.

Owns:
- `Value.depth`, and the bounds on it part by part;
- that keys in another order keep within it.

Does not own: the limit that text is held to.
-/

namespace Wireframe.Json.Value

mutual

/-- The greatest number of lists and objects inside one another. -/
def depth : Value → Nat
  | .array items => itemDepth items + 1
  | .object members => memberDepth members + 1
  | _ => 0

def itemDepth : List Value → Nat
  | [] => 0
  | item :: rest => max item.depth (itemDepth rest)

def memberDepth : List (String × Value) → Nat
  | [] => 0
  | (_, value) :: rest => max value.depth (memberDepth rest)

end

theorem itemDepth_le_iff (items : List Value) (bound : Nat) :
    itemDepth items ≤ bound ↔ ∀ item ∈ items, item.depth ≤ bound := by
  induction items with
  | nil => simp [itemDepth]
  | cons item rest inductionHypothesis =>
      rw [itemDepth, Nat.max_le, inductionHypothesis, List.forall_mem_cons]

theorem memberDepth_le_iff (members : List (String × Value)) (bound : Nat) :
    memberDepth members ≤ bound ↔ ∀ member ∈ members, member.2.depth ≤ bound := by
  induction members with
  | nil => simp [memberDepth]
  | cons member rest inductionHypothesis =>
      rw [memberDepth, Nat.max_le, inductionHypothesis, List.forall_mem_cons]

theorem depth_array_le_succ (items : List Value) (bound : Nat) :
    (array items).depth ≤ bound + 1 ↔ ∀ item ∈ items, item.depth ≤ bound := by
  rw [depth, Nat.succ_le_succ_iff, itemDepth_le_iff]

theorem depth_object_le_succ (members : List (String × Value)) (bound : Nat) :
    (object members).depth ≤ bound + 1 ↔ ∀ member ∈ members, member.2.depth ≤ bound := by
  rw [depth, Nat.succ_le_succ_iff, memberDepth_le_iff]

theorem depth_array_pos (items : List Value) : 0 < (array items).depth := by
  rw [depth]
  exact Nat.succ_pos _

theorem depth_object_pos (members : List (String × Value)) : 0 < (object members).depth := by
  rw [depth]
  exact Nat.succ_pos _

/-- Keys in another order do not nest a value more deeply. -/
theorem depth_sortKeys_le (value : Value) : value.sortKeys.depth ≤ value.depth := by
  induction value using induction with
  | array items inductionHypothesis =>
      obtain ⟨bound, isDepth⟩ := Nat.exists_eq_add_of_le' (depth_array_pos items)
      rw [isDepth, sortKeys_array, depth_array_le_succ, List.forall_mem_map]
      intro item isMember
      have within := (depth_array_le_succ items bound).mp (Nat.le_of_eq isDepth) item isMember
      exact Nat.le_trans (inductionHypothesis item isMember) within
  | object members inductionHypothesis =>
      obtain ⟨bound, isDepth⟩ := Nat.exists_eq_add_of_le' (depth_object_pos members)
      rw [isDepth, sortKeys_object, depth_object_le_succ]
      intro sorted isSorted
      obtain ⟨member, isMember, rfl⟩ :=
        List.mem_map.mp (mem_of_mem_orderMembers isSorted)
      have within := (depth_object_le_succ members bound).mp (Nat.le_of_eq isDepth) member isMember
      exact Nat.le_trans (inductionHypothesis member isMember) within
  | _ => exact Nat.le_refl _

end Wireframe.Json.Value
