import Mathlib.Data.List.Nodup
import Wireframe.Proofs.Check.Places

/-!
Contract: violations of a shape have different paths.

Owns:
- `Rule.isTidy`, the rules under which different defects have different paths, and that
  the rules of documents, nodes and patches are such rules;
- no two violations of a value against such a rule have one path.

Keys of free maps may spell anything, so that maps have to be flat: no path goes on
behind such a key.
-/

namespace Wireframe.Check

open Json

/-! ### Tidy rules -/

mutual

/-- Members have names of their own everywhere in the rule, and entries of maps are
scalars. -/
def Rule.isTidy : Rule → Bool
  | .map entry => entry.isScalar
  | .list item => item.isTidy
  | .object rules => decide (Tidy rules) && allTidy rules
  | _ => true

def allTidy : List (String × Need × Rule) → Bool
  | [] => true
  | (_, _, rule) :: rest => rule.isTidy && allTidy rest

end

theorem isTidy_of_mem {rules : List (String × Need × Rule)} (tidy : allTidy rules = true)
    {member : String × Need × Rule} (isMember : member ∈ rules) :
    member.2.2.isTidy = true := by
  induction rules with
  | nil => simp at isMember
  | cons first rest inductionHypothesis =>
      rcases first with ⟨key, need, rule⟩
      rw [allTidy, Bool.and_eq_true] at tidy
      rcases List.mem_cons.mp isMember with rfl | isLater
      · exact tidy.1
      · exact inductionHypothesis tidy.2 isLater

theorem tidy_of_isTidy {rules : List (String × Need × Rule)}
    (isTidy : (Rule.object rules).isTidy = true) : Tidy rules := by
  rw [Rule.isTidy, Bool.and_eq_true, decide_eq_true_eq] at isTidy
  exact isTidy.1

theorem isTidy_document : documentRule.isTidy = true := by decide

theorem isTidy_patch : patchRule.isTidy = true := by decide

theorem isTidy_node (isPartial : Bool) : (Rule.object (nodeShape isPartial)).isTidy = true := by
  cases isPartial <;> decide

theorem isTidy_item {rule item : Rule} (isItem : itemRule? rule = some item)
    (tidy : rule.isTidy = true) : item.isTidy = true := by
  cases rule with
  | quad =>
      cases isItem
      rfl
  | list rule =>
      cases isItem
      exact tidy
  | _ => simp [itemRule?] at isItem

theorem isTidy_members {rule : Rule} {rules : List (String × Need × Rule)}
    (isMembers : memberRules? nodeShape rule = some rules) (tidy : rule.isTidy = true) :
    (Rule.object rules).isTidy = true := by
  cases rule with
  | object rules =>
      cases isMembers
      exact tidy
  | node isPartial =>
      cases isMembers
      exact isTidy_node isPartial
  | _ => simp [memberRules?] at isMembers

/-! ### Paths of violations -/

def paths (found : List Violation) : List String :=
  found.map Violation.path

section Paths

variable {path : String}

/-- What is found in the items of a list has different paths, if that is so of each item
and whatever is found in an item is inside it. -/
theorem nodup_items {α : Type} {items : List Value} (find : Value → String → List α)
    {pathOf : α → String}
    (each : ∀ item ∈ items, ∀ path, ((find item path).map pathOf).Nodup)
    (inside : ∀ item ∈ items, ∀ path, ∀ found ∈ find item path, Inside path (pathOf found))
    (path : String) :
    ((items.zipIdx.flatMap fun entry =>
      find entry.1 (itemPath path entry.2)).map pathOf).Nodup := by
  have distinct : items.zipIdx.Pairwise fun first later => first.2 ≠ later.2 := by
    rw [← List.pairwise_map, List.zipIdx_map_snd]
    exact List.nodup_range' 1
  rw [List.map_flatMap, List.nodup_flatMap]
  constructor
  · intro entry isEntry
    exact each entry.1 (List.fst_mem_of_mem_zipIdx isEntry) _
  · apply distinct.imp_of_mem
    intro first later isFirst isLater different shared inFirst inLater
    rcases List.mem_map.mp inFirst with ⟨found, isFound, rfl⟩
    rcases List.mem_map.mp inLater with ⟨other, isOther, same⟩
    have insideFirst := inside first.1 (List.fst_mem_of_mem_zipIdx isFirst) _ found isFound
    have insideLater := inside later.1 (List.fst_mem_of_mem_zipIdx isLater) _ other isOther
    exact different (index_unique insideFirst (same ▸ insideLater))

/-- Entries of a map have one path each, whatever their keys spell. -/
theorem paths_entries_sublist {entry : Rule} (isScalar : entry.isScalar = true)
    (members : List (String × Value)) (path : String) :
    (paths (members.flatMap fun member =>
        check nodeShape member.2 entry (memberPath path member.1))).Sublist
      (members.map fun member => memberPath path member.1) := by
  induction members with
  | nil => exact List.Sublist.refl _
  | cons member rest inductionHypothesis =>
      rw [List.flatMap_cons, paths, List.map_append, List.map_cons]
      rcases atMostHere_check isScalar nodeShape member.2 with
        nothing | ⟨message, actual, here⟩
      · rw [nothing]
        exact inductionHypothesis.cons _
      · rw [here]
        exact inductionHypothesis.cons_cons _

theorem memberPath_injective (path : String) : Function.Injective (memberPath path) := by
  intro key other same
  simpa [memberPath, String.append_assoc] using same

theorem nodup_checkMember {members : List (String × Value)} {member : String × Need × Rule}
    (distinct : (namesOf member).Nodup) (unsplit : ∀ name ∈ namesOf member, Unsplit name)
    (each : ∀ inner ∈ members, ∀ path, (paths (check nodeShape inner.2 member.2.2 path)).Nodup) :
    (paths (checkMember (checkersOf nodeShape members) path member)).Nodup := by
  rcases exists_memberFinds nodeShape members member with ⟨report, isReport, finds⟩
  rw [isReport]
  cases finds with
  | nothing => simp [paths]
  | missing => simp [paths]
  | present present => exact each _ (Value.mem_of_lookup present) _
  | «instead» present => exact each _ (Value.mem_of_lookup present) _
  | @conflict key other rule value present =>
      rw [paths, List.map_append, List.nodup_append]
      refine ⟨each _ (Value.mem_of_lookup present) _, by simp, ?_⟩
      intro first isFirst later isLater same
      rcases List.mem_map.mp isFirst with ⟨found, isFound, rfl⟩
      have isConflict : later = memberPath path other := by simpa [violation] using isLater
      -- The conflict is reported under the other name, all else under the own one.
      have inside := inside_of_mem_check value rule _ found isFound
      rw [same, isConflict] at inside
      have sameName := name_unique (unsplit key (by simp [namesOf]))
        (unsplit other (by simp [namesOf])) inside (inside_self _)
      simp [namesOf, sameName] at distinct

theorem nodup_checkMembers {rules : List (String × Need × Rule)} (tidy : Tidy rules)
    {members : List (String × Value)}
    (each : ∀ rule ∈ rules, ∀ inner ∈ members, ∀ path,
      (paths (check nodeShape inner.2 rule.2.2 path)).Nodup) :
    (paths (checkMembers rules (checkersOf nodeShape members) path)).Nodup := by
  rcases List.nodup_flatMap.mp tidy.1 with ⟨distinct, apart⟩
  rw [checkMembers, paths, List.map_flatMap, List.nodup_flatMap]
  constructor
  · intro rule isRule
    exact nodup_checkMember (distinct rule isRule) (fun name => tidy.unsplit isRule)
      (each rule isRule)
  · apply apart.imp_of_mem
    intro first later isFirst isLater disjoint shared inFirst inLater
    rcases List.mem_map.mp inFirst with ⟨found, isFound, rfl⟩
    rcases List.mem_map.mp inLater with ⟨other, isOther, same⟩
    rcases inside_of_mem_checkMember (fun inner _ => inside_of_mem_check inner.2) isFound with
      ⟨name, isName, inside⟩
    rcases inside_of_mem_checkMember (fun inner _ => inside_of_mem_check inner.2) isOther with
      ⟨nameOther, isNameOther, insideOther⟩
    have equal := tidy.unique_of_inside isFirst isLater isName isNameOther inside
      (same ▸ insideOther)
    exact disjoint isName (equal ▸ isName)

/-- No two violations of a shape have one path. -/
theorem nodup_check (value : Value) (rule : Rule) :
    rule.isTidy = true → value.Ordered → ∀ path, (paths (check nodeShape value rule path)).Nodup := by
  induction value, rule using check_induction nodeShape with
  | nothing => simp [paths]
  | here => simp [paths]
  | items inside rule item isItem inductionHypothesis =>
      intro tidy ordered path
      rw [Value.ordered_array] at ordered
      show (paths (checkItems nodeShape inside item path 0)).Nodup
      rw [checkItems_eq_flatMap]
      apply nodup_items fun value => check nodeShape value item
      · intro value isInside
        exact inductionHypothesis value isInside item (isTidy_item isItem tidy)
          (ordered value isInside)
      · exact fun value _ => inside_of_mem_check value item
  | entries members entry _ =>
      intro tidy ordered path
      rw [Value.ordered_object] at ordered
      apply (paths_entries_sublist tidy members path).nodup
      rw [show (fun member : String × Value => memberPath path member.1) =
        memberPath path ∘ Prod.fst from rfl, ← List.map_map]
      exact ordered.1.nodup.map (memberPath_injective path)
  | members members rule rules isMembers inductionHypothesis =>
      intro tidy ordered path
      rw [Value.ordered_object] at ordered
      have tidyMembers := isTidy_members isMembers tidy
      rw [Rule.isTidy, Bool.and_eq_true, decide_eq_true_eq] at tidyMembers
      apply nodup_checkMembers tidyMembers.1
      intro member isMember inner isInner
      exact inductionHypothesis inner isInner _ (isTidy_of_mem tidyMembers.2 isMember)
        (ordered.2 inner isInner)

end Paths

end Wireframe.Check
