import Wireframe.Json.Value

/-!
Contract: values whose objects hold each key once, in order.

Owns:
- `Value.induction`, induction over a value and everything inside it;
- `Value.Ordered`, the form in which parsed data is held;
- what ordering the members of an object does to look-ups and to values.

Does not own: the parser, whose values have this form.
-/

namespace Wireframe.Json

namespace Value

/-! ### Induction over values -/

/-- Induction over a value: lists and objects may assume what is claimed of
their items and of the values of their members. -/
@[elab_as_elim] theorem induction {motive : Value → Prop}
    (null : motive .null)
    (bool : ∀ value, motive (.bool value))
    (integer : ∀ number, motive (.integer number))
    (float : ∀ number, motive (.float number))
    (string : ∀ text, motive (.string text))
    (array : ∀ items, (∀ item ∈ items, motive item) → motive (.array items))
    (object : ∀ members, (∀ member ∈ members, motive member.2) → motive (.object members))
    (value : Value) : motive value :=
  @Value.rec motive (fun items => ∀ item ∈ items, motive item)
    (fun members => ∀ member ∈ members, motive member.2) (fun member => motive member.2)
    null bool integer float string array object
    (List.forall_mem_nil _) (fun _ _ head tail => List.forall_mem_cons.mpr ⟨head, tail⟩)
    (List.forall_mem_nil _) (fun _ _ head tail => List.forall_mem_cons.mpr ⟨head, tail⟩)
    (fun _ _ claim => claim) value

/-! ### Ordered members -/

/-- The keys stand in ascending order, each of them once. -/
def Ascending {α : Type} (members : List (String × α)) : Prop :=
  members.Pairwise fun earlier later => earlier.1 < later.1

section Members

variable {α : Type}

theorem lookup_cons_eq_ite (key sought : String) (value : α) (members : List (String × α)) :
    ((key, value) :: members).lookup sought =
      if sought = key then some value else members.lookup sought := by
  rw [List.lookup_cons]
  by_cases equal : sought = key
  · simp [equal]
  · simp [equal, beq_eq_false_iff_ne.mpr equal]

/-- Values that are changed alike are found where they stood. -/
theorem lookup_map_values {β : Type} (change : α → β) (members : List (String × α))
    (sought : String) :
    (members.map fun member => (member.1, change member.2)).lookup sought =
      (members.lookup sought).map change := by
  induction members with
  | nil => rfl
  | cons member rest inductionHypothesis =>
      rw [List.map_cons, lookup_cons_eq_ite, lookup_cons_eq_ite, inductionHypothesis]
      split <;> rfl

theorem Ascending.nodup {members : List (String × α)} (ascending : Ascending members) :
    (members.map Prod.fst).Nodup := by
  refine List.pairwise_map.mpr (ascending.imp ?_)
  intro earlier later below equal
  rw [equal] at below
  exact String.lt_irrefl _ below

/-- The order of members is the order of their keys. -/
theorem ascending_iff_keys {members : List (String × α)} :
    Ascending members ↔ (members.map Prod.fst).Pairwise (· < ·) :=
  List.pairwise_map.symm

theorem Ascending.of_keys {β : Type} {members : List (String × α)}
    {others : List (String × β)} (ascending : Ascending others)
    (same : members.map Prod.fst = others.map Prod.fst) : Ascending members := by
  rw [ascending_iff_keys, same]
  exact ascending_iff_keys.mp ascending

/-- What two texts that are not in order and not equal are. -/
theorem lt_of_not_lt_of_ne {left right : String} (notBelow : ¬ left < right)
    (different : left ≠ right) : right < left := by
  rcases Decidable.em (right < left) with below | notAbove
  · exact below
  · exact absurd (String.le_antisymm (String.not_lt.mp notAbove) (String.not_lt.mp notBelow))
      different

theorem mem_insertMember {key : String} {value : α} {members : List (String × α)}
    {member : String × α} (inserted : member ∈ insertMember key value members) :
    member = (key, value) ∨ member ∈ members := by
  induction members with
  | nil => exact Or.inl (List.mem_singleton.mp inserted)
  | cons head tail inductionHypothesis =>
      obtain ⟨otherKey, other⟩ := head
      unfold insertMember at inserted
      split at inserted
      · exact List.mem_cons.mp inserted
      · split at inserted
        · rcases List.mem_cons.mp inserted with equal | later
          · exact Or.inl equal
          · exact Or.inr (List.mem_cons_of_mem _ later)
        · rcases List.mem_cons.mp inserted with equal | later
          · exact Or.inr (List.mem_cons.mpr (Or.inl equal))
          · rcases inductionHypothesis later with equal | old
            · exact Or.inl equal
            · exact Or.inr (List.mem_cons_of_mem _ old)

theorem ascending_insertMember {key : String} {value : α} {members : List (String × α)}
    (ascending : Ascending members) : Ascending (insertMember key value members) := by
  induction members with
  | nil => exact List.pairwise_singleton _ _
  | cons head tail inductionHypothesis =>
      obtain ⟨otherKey, other⟩ := head
      obtain ⟨above, rest⟩ := List.pairwise_cons.mp ascending
      unfold insertMember
      split
      · rename_i below
        refine List.pairwise_cons.mpr ⟨?_, ascending⟩
        intro member isMember
        rcases List.mem_cons.mp isMember with rfl | later
        · exact below
        · exact String.lt_trans below (above member later)
      · rename_i notBelow
        split
        · rename_i equal
          subst equal
          exact List.pairwise_cons.mpr ⟨above, rest⟩
        · rename_i different
          refine List.pairwise_cons.mpr ⟨?_, inductionHypothesis rest⟩
          intro member isMember
          rcases mem_insertMember isMember with rfl | old
          · exact lt_of_not_lt_of_ne notBelow different
          · exact above member old

theorem lookup_insertMember (key sought : String) (value : α) (members : List (String × α)) :
    (insertMember key value members).lookup sought =
      if sought = key then some value else members.lookup sought := by
  induction members with
  | nil => exact lookup_cons_eq_ite key sought value []
  | cons head tail inductionHypothesis =>
      obtain ⟨otherKey, other⟩ := head
      unfold insertMember
      split
      · exact lookup_cons_eq_ite key sought value _
      · split
        · rename_i equal
          subst equal
          rw [lookup_cons_eq_ite, lookup_cons_eq_ite]
          split <;> rfl
        · rename_i different
          rw [lookup_cons_eq_ite, inductionHypothesis, lookup_cons_eq_ite]
          by_cases found : sought = otherKey
          · have apart : sought ≠ key := fun equal => different (equal.symm.trans found)
            rw [if_pos found, if_neg apart, if_pos found]
          · rw [if_neg found, if_neg found]

/-- The members inserted one after the other into others. -/
private theorem ascending_foldl (members start : List (String × α))
    (ascending : Ascending start) :
    Ascending (members.foldl (fun ordered member => insertMember member.1 member.2 ordered)
      start) := by
  induction members generalizing start with
  | nil => exact ascending
  | cons head tail inductionHypothesis =>
      exact inductionHypothesis _ (ascending_insertMember ascending)

theorem ascending_orderMembers (members : List (String × α)) :
    Ascending (orderMembers members) :=
  ascending_foldl members [] List.Pairwise.nil

private theorem mem_foldl {members start : List (String × α)} {member : String × α}
    (isMember : member ∈
      members.foldl (fun ordered member => insertMember member.1 member.2 ordered) start) :
    member ∈ members ∨ member ∈ start := by
  induction members generalizing start with
  | nil => exact Or.inr isMember
  | cons head tail inductionHypothesis =>
      rcases inductionHypothesis isMember with later | earlier
      · exact Or.inl (List.mem_cons_of_mem _ later)
      · rcases mem_insertMember earlier with equal | old
        · exact Or.inl (List.mem_cons.mpr (Or.inl equal))
        · exact Or.inr old

theorem mem_of_mem_orderMembers {members : List (String × α)} {member : String × α}
    (isMember : member ∈ orderMembers members) : member ∈ members := by
  rcases mem_foldl isMember with found | impossible
  · exact found
  · exact absurd impossible (List.not_mem_nil)

/-- A member above all others goes to the end. -/
theorem insertMember_above {key : String} {value : α} {members : List (String × α)}
    (above : ∀ member ∈ members, member.1 < key) :
    insertMember key value members = members ++ [(key, value)] := by
  induction members with
  | nil => rfl
  | cons head tail inductionHypothesis =>
      obtain ⟨otherKey, other⟩ := head
      have below : otherKey < key := above (otherKey, other) (List.mem_cons_self ..)
      have different : key ≠ otherKey := fun equal => String.lt_irrefl _ (equal ▸ below)
      unfold insertMember
      rw [if_neg (String.lt_asymm below), if_neg different,
        inductionHypothesis fun member isMember =>
          above member (List.mem_cons_of_mem _ isMember)]
      rfl

private theorem foldl_ascending (members start : List (String × α))
    (ascending : Ascending (start ++ members)) :
    members.foldl (fun ordered member => insertMember member.1 member.2 ordered) start =
      start ++ members := by
  induction members generalizing start with
  | nil => simp
  | cons head tail inductionHypothesis =>
      have above : ∀ member ∈ start, member.1 < head.1 := fun member isMember =>
        (List.pairwise_append.mp ascending).2.2 member isMember head (List.mem_cons_self ..)
      rw [List.foldl_cons, insertMember_above above, inductionHypothesis]
      · simp
      · simpa using ascending

/-- Members that stand in order are left as they are. -/
theorem orderMembers_of_ascending {members : List (String × α)}
    (ascending : Ascending members) : orderMembers members = members := by
  simpa [orderMembers] using foldl_ascending members [] ascending

theorem lookup_eq_none_of_fresh {key : String} {members : List (String × α)}
    (fresh : key ∉ members.map Prod.fst) : members.lookup key = none := by
  rw [List.lookup_eq_none_iff]
  intro member isMember
  have different : key ≠ member.1 := by
    intro equal
    exact fresh (equal ▸ List.mem_map.mpr ⟨member, isMember, rfl⟩)
  exact bne_iff_ne.mpr different

private theorem lookup_foldl (sought : String) (members start : List (String × α))
    (distinct : (members.map Prod.fst).Nodup) :
    (members.foldl (fun ordered member => insertMember member.1 member.2 ordered)
        start).lookup sought =
      (members.lookup sought).or (start.lookup sought) := by
  induction members generalizing start with
  | nil => simp
  | cons head tail inductionHypothesis =>
      obtain ⟨key, value⟩ := head
      obtain ⟨fresh, rest⟩ := List.nodup_cons.mp distinct
      rw [List.foldl_cons, inductionHypothesis _ rest, lookup_insertMember,
        lookup_cons_eq_ite]
      by_cases equal : sought = key
      · subst equal
        rw [lookup_eq_none_of_fresh fresh, if_pos rfl, if_pos rfl]
        rfl
      · rw [if_neg equal, if_neg equal]

/-- Ordering members with different keys keeps every look-up. -/
theorem lookup_orderMembers {members : List (String × α)}
    (distinct : (members.map Prod.fst).Nodup) (sought : String) :
    (orderMembers members).lookup sought = members.lookup sought := by
  simpa [orderMembers] using lookup_foldl sought members [] distinct

end Members

/-! ### Ordered values -/

mutual

/-- Every object inside the value holds each key once, in order. -/
def Ordered : Value → Prop
  | .array items => OrderedItems items
  | .object members => Ascending members ∧ OrderedMembers members
  | _ => True

def OrderedItems : List Value → Prop
  | [] => True
  | item :: rest => item.Ordered ∧ OrderedItems rest

def OrderedMembers : List (String × Value) → Prop
  | [] => True
  | (_, value) :: rest => value.Ordered ∧ OrderedMembers rest

end

theorem orderedItems_iff (items : List Value) :
    OrderedItems items ↔ ∀ item ∈ items, item.Ordered := by
  induction items with
  | nil => simp [OrderedItems]
  | cons item rest inductionHypothesis => simp [OrderedItems, inductionHypothesis]

theorem orderedMembers_iff (members : List (String × Value)) :
    OrderedMembers members ↔ ∀ member ∈ members, member.2.Ordered := by
  induction members with
  | nil => simp [OrderedMembers]
  | cons member rest inductionHypothesis => simp [OrderedMembers, inductionHypothesis]

@[simp] theorem ordered_array (items : List Value) :
    (array items).Ordered ↔ ∀ item ∈ items, item.Ordered := by
  rw [Ordered, orderedItems_iff]

@[simp] theorem ordered_object (members : List (String × Value)) :
    (object members).Ordered ↔
      Ascending members ∧ ∀ member ∈ members, member.2.Ordered := by
  rw [Ordered, orderedMembers_iff]

theorem sortItems_eq_map (items : List Value) : sortItems items = items.map sortKeys := by
  induction items with
  | nil => rfl
  | cons item rest inductionHypothesis => rw [sortItems, inductionHypothesis, List.map_cons]

theorem sortMembers_eq_map (members : List (String × Value)) :
    sortMembers members = members.map fun member => (member.1, member.2.sortKeys) := by
  induction members with
  | nil => rfl
  | cons member rest inductionHypothesis =>
      rw [sortMembers, inductionHypothesis, List.map_cons]

@[simp] theorem sortKeys_array (items : List Value) :
    (array items).sortKeys = .array (items.map sortKeys) := by
  rw [sortKeys, sortItems_eq_map]

@[simp] theorem sortKeys_object (members : List (String × Value)) :
    (object members).sortKeys =
      .object (orderMembers (members.map fun member => (member.1, member.2.sortKeys))) := by
  rw [sortKeys, sortMembers_eq_map]

/-- An object of different keys, these in order, shows each of its members. -/
theorem exists_sortKeys_object {members : List (String × Value)}
    (distinct : (members.map Prod.fst).Nodup) :
    ∃ sorted, (object members).sortKeys = .object sorted ∧ (sorted.map Prod.fst).Nodup ∧
      ∀ key, sorted.lookup key = (members.lookup key).map sortKeys := by
  have sortedKeys : ((members.map fun member =>
      (member.1, member.2.sortKeys)).map Prod.fst).Nodup := by
    rw [List.map_map]
    exact distinct
  refine ⟨_, sortKeys_object members, (ascending_orderMembers _).nodup, fun key => ?_⟩
  rw [lookup_orderMembers sortedKeys, lookup_map_values]

theorem ordered_sortKeys (value : Value) : value.sortKeys.Ordered := by
  induction value using induction with
  | null => trivial
  | bool value => trivial
  | integer number => trivial
  | float number => trivial
  | string text => trivial
  | array items inductionHypothesis =>
      simpa using inductionHypothesis
  | object members inductionHypothesis =>
      rw [sortKeys_object, ordered_object]
      refine ⟨ascending_orderMembers _, fun member isMember => ?_⟩
      obtain ⟨original, present, rfl⟩ :=
        List.mem_map.mp (mem_of_mem_orderMembers isMember)
      exact inductionHypothesis original present

theorem sortKeys_of_ordered {value : Value} (ordered : value.Ordered) :
    value.sortKeys = value := by
  induction value using induction with
  | null => rfl
  | bool value => rfl
  | integer number => rfl
  | float number => rfl
  | string text => rfl
  | array items inductionHypothesis =>
      rw [ordered_array] at ordered
      have same : items.map sortKeys = items := by
        rw [List.map_congr_left fun item isMember =>
          inductionHypothesis item isMember (ordered item isMember)]
        exact List.map_id _
      rw [sortKeys_array, same]
  | object members inductionHypothesis =>
      rw [ordered_object] at ordered
      have same : (members.map fun member => (member.1, member.2.sortKeys)) = members := by
        rw [List.map_congr_left fun member isMember =>
          congrArg (Prod.mk member.1)
            (inductionHypothesis member isMember (ordered.2 member isMember))]
        exact List.map_id _
      rw [sortKeys_object, same, orderMembers_of_ascending ordered.1]

end Value

end Wireframe.Json
