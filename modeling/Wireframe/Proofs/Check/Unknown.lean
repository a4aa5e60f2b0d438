import Wireframe.Proofs.Check.Locations
import Wireframe.Proofs.Codec.Schema

/-!
Contract: a check does not look at members that an object does not know.

Owns:
- `Rule.fits`, the rules that look at known members alone, and that those of documents,
  nodes and patches are such rules;
- the violations of a value and the ids in it are those of the stripped value.

Does not own: what the decoders make of unknown members.
-/

namespace Wireframe.Check

open Json Schema

variable {struct : Struct} {slot : Slot} {members : List (String × Value)}

/-! ### Rules that fit the schema -/

mutual

/-- Whether a rule expects what the schema does, under all the names that it looks
at. -/
def Rule.fits : Rule → Slot → Bool
  | _, .data => true
  | .list item, .many struct => item.fits (.one struct)
  | .object rules, .one struct => allFit struct rules
  | .node _, .one .node => true
  | _, _ => false

def allFit (struct : Struct) : List (String × Need × Rule) → Bool
  | [] => true
  | (key, need, rule) :: rest =>
      ((namesOf (key, need, rule)).all fun name => (struct.slot? name).any fun slot =>
        rule.fits slot) && allFit struct rest

end

theorem fits_of_mem {rules : List (String × Need × Rule)} (fit : allFit struct rules = true)
    {member : String × Need × Rule} (isMember : member ∈ rules) :
    ∀ name ∈ namesOf member, ∃ slot, struct.slot? name = some slot ∧
      member.2.2.fits slot = true := by
  induction rules with
  | nil => simp at isMember
  | cons first rest inductionHypothesis =>
      rcases first with ⟨key, need, rule⟩
      rw [allFit, Bool.and_eq_true] at fit
      rcases List.mem_cons.mp isMember with rfl | isLater
      · simpa [List.all_eq_true, Option.any_eq_true] using fit.1
      · exact inductionHypothesis fit.2 isLater

theorem fits_document : documentRule.fits (.one .document) = true := by decide

theorem fits_patch : patchRule.fits (.one .patch) = true := by decide

theorem allFit_node (isPartial : Bool) : allFit .node (nodeShape isPartial) = true := by
  cases isPartial <;> decide

/-- A rule that fits an object is one of objects, and its members fit. -/
theorem allFit_of_fits {rule : Rule} (fits : rule.fits (.one struct) = true) :
    ∃ rules, memberRules? nodeShape rule = some rules ∧ allFit struct rules = true := by
  cases rule with
  | object rules => exact ⟨rules, rfl, fits⟩
  | node isPartial =>
      cases struct with
      | node => exact ⟨nodeShape isPartial, rfl, allFit_node isPartial⟩
      | _ => exact absurd fits Bool.false_ne_true
  | _ => exact absurd fits Bool.false_ne_true

/-! ### Violations -/

/-- What is found about a member depends on what is found under its names alone. -/
theorem checkMember_congr {checkers others : List (String × Checker)}
    {member : String × Need × Rule} {path : String}
    (same : ∀ name ∈ namesOf member, (checkers.lookup name).map (· member.2.2) =
      (others.lookup name).map (· member.2.2)) :
    checkMember checkers path member = checkMember others path member := by
  rcases member with ⟨key, need, rule⟩
  have own := same key (mem_namesOf_self key need rule)
  cases need with
  | required | optional =>
      simp only [checkMember, checkerFor?]
      generalize checkers.lookup key = first at own ⊢
      generalize others.lookup key = second at own ⊢
      cases first <;> cases second <;> simp_all
  | insteadOf other =>
      have instead := same other (by simp [namesOf])
      simp only [checkMember, checkerFor?]
      generalize checkers.lookup key = first at own ⊢
      generalize others.lookup key = second at own ⊢
      generalize checkers.lookup other = third at instead ⊢
      generalize others.lookup other = fourth at instead ⊢
      cases first <;> cases second <;> cases third <;> cases fourth <;> simp_all

/-- What a rule of objects finds in an object. -/
theorem check_members {rule : Rule} {rules : List (String × Need × Rule)}
    (isMembers : memberRules? nodeShape rule = some rules) (path : String) :
    check nodeShape (.object members) rule path =
      checkMembers rules (checkersOf nodeShape members) path := by
  cases rule with
  | object | node =>
      cases isMembers
      rfl
  | _ => exact absurd isMembers nofun

theorem checkItems_strip {items : List Value} {rule : Rule}
    (each : ∀ item ∈ items,
      check nodeShape (strip (.one struct) item) rule = check nodeShape item rule)
    (path : String) (start : Nat) :
    checkItems nodeShape (stripItems struct items) rule path start =
      checkItems nodeShape items rule path start := by
  induction items generalizing start with
  | nil => rfl
  | cons item rest inductionHypothesis =>
      rw [List.forall_mem_cons] at each
      rw [stripItems, checkItems, checkItems, each.1, inductionHypothesis each.2]

/-- A check finds the same without the members that an object does not know. -/
theorem check_strip (value : Value) :
    ∀ slot rule, rule.fits slot = true →
      check nodeShape (strip slot value) rule = check nodeShape value rule := by
  induction value using Value.induction with
  | object members inductionHypothesis =>
      intro slot rule fits
      cases slot with
      | data => rw [strip_data]
      | many => rfl
      | one struct =>
          -- Every name that the rule looks up is known, so its member survives.
          rcases allFit_of_fits fits with ⟨rules, isMembers, fit⟩
          funext path
          show check nodeShape (.object (stripMembers struct members)) rule path = _
          rw [check_members isMembers, check_members isMembers]
          apply List.flatMap_congr
          intro member isMember
          apply checkMember_congr
          intro name isName
          rcases fits_of_mem fit isMember name isName with ⟨slot, known, fitsSlot⟩
          rw [lookup_checkersOf, lookup_checkersOf, lookup_stripMembers known]
          cases present : members.lookup name with
          | none => rfl
          | some value =>
              have same := inductionHypothesis _ (Value.mem_of_lookup present) slot _ fitsSlot
              simp only [Option.map_some, same]
  | array items inductionHypothesis =>
      intro slot rule fits
      cases slot with
      | data => rw [strip_data]
      | one => rfl
      | many struct =>
          cases rule with
          | list item =>
              funext path
              show checkItems nodeShape (stripItems struct items) item path 0 =
                checkItems nodeShape items item path 0
              exact checkItems_strip (fun inside isInside =>
                inductionHypothesis inside isInside _ item fits) path 0
          | _ => exact absurd fits Bool.false_ne_true
  | _ =>
      intro slot rule fits
      cases slot <;> rfl

/-! ### Ids -/

theorem ownId_strip (path : String) :
    ownId (stripMembers .node members) path = ownId members path := by
  have known : Struct.slot? .node "id" = some .data := rfl
  unfold ownId Value.member?
  rw [lookup_stripMembers known]
  cases members.lookup "id" with
  | none => rfl
  | some value => rw [Option.map_some, strip_data]

theorem childItems_strip :
    childItems (stripMembers .node members) = (childItems members).map (strip (.one .node)) := by
  have known : Struct.slot? .node "children" = some (.many .node) := rfl
  unfold childItems
  rw [lookup_stripMembers known]
  cases members.lookup "children" with
  | none => rfl
  | some value =>
      cases value with
      | array items => exact stripItems_eq_map .node items
      | _ => rfl

/-- The search for ids goes through known members alone. -/
theorem idPaths_strip (value : Value) : idPaths (strip (.one .node) value) = idPaths value := by
  induction value using children_induction with
  | object members inductionHypothesis =>
      funext path
      show idPaths (.object (stripMembers .node members)) path = _
      rw [idPaths_object, idPaths_object, ownId_strip, childItems_strip, List.zipIdx_map,
        List.flatMap_map]
      congr 1
      apply List.flatMap_congr
      intro entry isEntry
      exact congrFun (inductionHypothesis entry.1 (List.fst_mem_of_mem_zipIdx isEntry)) _
  | other value notObject =>
      cases value with
      | object members => exact absurd rfl (notObject members)
      | _ => rfl

theorem uniqueIdViolations_strip (value : Value) :
    uniqueIdViolations (strip (.one .document) value) = uniqueIdViolations value := by
  cases value with
  | object members =>
      show uniqueIdViolations (.object (stripMembers .document members)) = _
      have known : Struct.slot? .document "layoutTree" = some (.one .node) := rfl
      simp only [uniqueIdViolations, Value.member?, lookup_stripMembers known]
      cases members.lookup "layoutTree" with
      | none => rfl
      | some tree => simp only [Option.map_some, idPaths_strip]
  | _ => rfl

/-! ### Reports -/

theorem documentViolations_strip (value : Value) :
    documentViolations (strip (.one .document) value) = documentViolations value := by
  unfold documentViolations violations
  rw [check_strip value _ _ fits_document, uniqueIdViolations_strip]

theorem patchesViolations_strip (value : Value) :
    patchesViolations (strip (.many .patch) value) = patchesViolations value := by
  cases value with
  | array items =>
      exact checkItems_strip (fun item _ => check_strip item _ _ fits_patch) rootPath 0
  | _ => rfl

end Wireframe.Check
