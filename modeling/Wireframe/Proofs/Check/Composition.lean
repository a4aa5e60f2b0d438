import Wireframe.Proofs.Check.Places

/-!
Contract: how what is found in a value depends on where the value stands.

Owns:
- a value is found to have the same defects wherever it stands, with the path in front;
- `Block`, a run of violations that tells all about one place, and the blocks that
  members and items make up in what is found in a value.
-/

namespace Wireframe.Check

open Json

/-! ### One value at two places -/

/-- The violation with its path continued in front. -/
def behind (place : String) (violation : Violation) : Violation :=
  { violation with path := place ++ violation.path }

/-- A violation of a value that is looked at alone, where the value stands at a place:
the place takes that of the root. -/
def relocated (place : String) (violation : Violation) : Violation :=
  { violation with path := place ++ String.ofList violation.path.toList.tail }

section Places

variable {shape : Bool → List (String × Need × Rule)}

theorem memberPath_append (place path key : String) :
    memberPath (place ++ path) key = place ++ memberPath path key := by
  simp [memberPath, String.append_assoc]

theorem itemPath_append (place path : String) (index : Nat) :
    itemPath (place ++ path) index = place ++ itemPath path index := by
  simp [itemPath, String.append_assoc]

theorem checkMember_append {members : List (String × Value)}
    (each : ∀ member ∈ members, ∀ rule place path,
      check shape member.2 rule (place ++ path) =
        (check shape member.2 rule path).map (behind place))
    (place path : String) (member : String × Need × Rule) :
    checkMember (checkersOf shape members) (place ++ path) member =
      (checkMember (checkersOf shape members) path member).map (behind place) := by
  rcases exists_memberFinds shape members member with ⟨report, isReport, finds⟩
  rw [isReport, isReport]
  cases finds with
  | nothing => rfl
  | missing =>
      simp only [memberPath_append]
      rfl
  | present present =>
      simp only [memberPath_append]
      exact each _ (Value.mem_of_lookup present) _ _ _
  | «instead» present =>
      simp only [memberPath_append]
      exact each _ (Value.mem_of_lookup present) _ _ _
  | conflict present =>
      simp only [memberPath_append, List.map_append]
      rw [each _ (Value.mem_of_lookup present)]
      rfl

/-- What is found in a value does not depend on where the value stands, but for the
beginning of the paths. -/
theorem check_append (shape : Bool → List (String × Need × Rule)) (value : Value)
    (rule : Rule) :
    ∀ place path, check shape value rule (place ++ path) =
      (check shape value rule path).map (behind place) := by
  induction value, rule using check_induction shape with
  | nothing => exact fun _ _ => rfl
  | here => exact fun _ _ => rfl
  | items inside rule item _ inductionHypothesis =>
      intro place path
      simp only [checkItems_eq_flatMap, List.map_flatMap, itemPath_append]
      apply List.flatMap_congr
      intro entry isEntry
      exact inductionHypothesis entry.1 (List.fst_mem_of_mem_zipIdx isEntry) item _ _
  | entries members entry inductionHypothesis =>
      intro place path
      simp only [List.map_flatMap, memberPath_append]
      apply List.flatMap_congr
      intro member isMember
      exact inductionHypothesis member isMember entry _ _
  | members members rule rules _ inductionHypothesis =>
      intro place path
      simp only [checkMembers, List.map_flatMap]
      apply List.flatMap_congr
      intro member _
      exact checkMember_append inductionHypothesis place path member

/-- What is found at a place is what is found in the value alone. -/
theorem check_relocated (value : Value) (rule : Rule) (place : String) :
    check shape value rule place = (check shape value rule rootPath).map (relocated place) := by
  have atPlace := check_append shape value rule place ""
  have atRoot := check_append shape value rule rootPath ""
  rw [String.append_empty] at atPlace atRoot
  rw [atPlace, atRoot, List.map_map]
  apply List.map_congr_left
  intro found _
  simp [relocated, behind, rootPath]

end Places

/-! ### Blocks -/

/-- A part of what is found stands together, and all the rest lies outside of a place. -/
def Block (place : String) (whole part : List Violation) : Prop :=
  ∃ before after, whole = before ++ part ++ after ∧
    ∀ other ∈ before ++ after, ¬ Inside place other.path

theorem Block.all (place : String) (whole : List Violation) : Block place whole whole :=
  ⟨[], [], by simp, by simp⟩

theorem Block.trans {outer inner : String} {whole middle part : List Violation}
    (first : Block outer whole middle) (second : Block inner middle part)
    (inside : Inside outer inner) : Block inner whole part := by
  rcases first with ⟨before, after, rfl, outside⟩
  rcases second with ⟨innerBefore, innerAfter, rfl, innerOutside⟩
  refine ⟨before ++ innerBefore, innerAfter ++ after, by simp, ?_⟩
  intro other isOther within
  have among : other ∈ before ++ after ∨ other ∈ innerBefore ++ innerAfter := by
    simp only [List.mem_append] at isOther ⊢
    tauto
  rcases among with isOuter | isInner
  · exact outside other isOuter (inside.trans within)
  · exact innerOutside other isInner within

/-- What is found in one of several parts makes up a block, if no other part reaches into
its place. -/
theorem block_flatMap {α : Type} {parts : List α} (find : α → List Violation) {part : α}
    {place : String} (distinct : parts.Nodup) (isPart : part ∈ parts)
    (outside : ∀ other ∈ parts, other ≠ part → ∀ found ∈ find other, ¬ Inside place found.path) :
    Block place (parts.flatMap find) (find part) := by
  rcases List.append_of_mem isPart with ⟨left, right, rfl⟩
  rw [List.nodup_middle, List.nodup_cons] at distinct
  refine ⟨left.flatMap find, right.flatMap find, by simp, ?_⟩
  rw [← List.flatMap_append]
  intro found isFound
  rcases List.mem_flatMap.mp isFound with ⟨other, isOther, isFound⟩
  have different : other ≠ part := fun same => distinct.1 (same ▸ isOther)
  apply outside other _ different found isFound
  simp only [List.mem_append, List.mem_cons] at isOther ⊢
  tauto

/-- What is found about a member that is there makes up a block. -/
theorem block_checkMembers {rules : List (String × Need × Rule)} (tidy : Tidy rules)
    {key : String} {need : Need} {rule : Rule} (isRule : (key, need, rule) ∈ rules)
    (plain : need = .required ∨ need = .optional) {members : List (String × Value)}
    {value : Value} (present : members.lookup key = some value) (path : String) :
    Block (memberPath path key) (checkMembers rules (checkersOf nodeShape members) path)
      (check nodeShape value rule (memberPath path key)) := by
  rw [← checkMember_of_present plain present, checkMembers]
  apply block_flatMap _ tidy.nodup isRule
  intro other isOther different found isFound within
  rcases inside_of_mem_checkMember (fun inner _ => inside_of_mem_check inner.2) isFound with
    ⟨name, isName, inside⟩
  exact different (tidy.unique_of_inside isOther isRule isName (mem_namesOf_self ..) inside within)

/-- What is found in an item makes up a block. -/
theorem block_checkItems {items : List Value} {index : Nat} {item : Value}
    (isItem : items[index]? = some item) (rule : Rule) (path : String) :
    Block (itemPath path index) (checkItems nodeShape items rule path 0)
      (check nodeShape item rule (itemPath path index)) := by
  have distinct : items.zipIdx.Nodup := by
    apply List.Nodup.of_map Prod.snd
    rw [List.zipIdx_map_snd]
    exact List.nodup_range' 1
  have isEntry : (item, index) ∈ items.zipIdx := List.mem_zipIdx_iff_getElem?.mpr isItem
  rw [checkItems_eq_flatMap]
  refine block_flatMap (fun entry => check nodeShape entry.1 rule (itemPath path entry.2))
    distinct isEntry ?_
  rintro ⟨other, place⟩ isOther different found isFound within
  have samePlace : place = index := index_unique (inside_of_mem_check _ _ _ found isFound) within
  rw [List.mem_zipIdx_iff_getElem?, samePlace, isItem] at isOther
  exact different (Prod.ext (Option.some.inj isOther).symm samePlace)

end Wireframe.Check
