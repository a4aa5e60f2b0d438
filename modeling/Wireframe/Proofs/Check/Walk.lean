import Wireframe.Proofs.Check.Records

/-!
Contract: what a check of a value can find, as it depends on the path.

Owns:
- `MemberFinds`, the ways in which one member of an object is looked at;
- `check_induction`, induction over a value and a rule together, with one case for
  each way in which violations are put together.

Does not own: any law about the violations. Such a law is an instance of the
induction, so that it need not know the rules.
-/

namespace Wireframe.Check

open Json

variable {shape : Bool → List (String × Need × Rule)}

/-! ### Members -/

/-- What is found about one member of an object, as a function of the path of the
object. -/
inductive MemberFinds (shape : Bool → List (String × Need × Rule))
    (members : List (String × Value)) : String × Need × Rule → (String → List Violation) → Prop
  | nothing {key : String} {need : Need} {rule : Rule} :
      MemberFinds shape members (key, need, rule) fun _ => []
  | missing {key : String} {need : Need} {rule : Rule} :
      MemberFinds shape members (key, need, rule) fun path =>
        [violation (memberPath path key) "required field missing" none]
  | present {key : String} {need : Need} {rule : Rule} {value : Value}
      (found : members.lookup key = some value) :
      MemberFinds shape members (key, need, rule) fun path =>
        check shape value rule (memberPath path key)
  /-- Another member takes the place of the one that is looked for. -/
  | instead {key other : String} {rule : Rule} {value : Value}
      (found : members.lookup other = some value) :
      MemberFinds shape members (key, .insteadOf other, rule) fun path =>
        check shape value rule (memberPath path other)
  | conflict {key other : String} {rule : Rule} {value : Value}
      (found : members.lookup key = some value) :
      MemberFinds shape members (key, .insteadOf other, rule) fun path =>
        check shape value rule (memberPath path key) ++
          [violation (memberPath path other) ("conflicts with " ++ key) none]

theorem memberFinds (shape : Bool → List (String × Need × Rule))
    (members : List (String × Value)) (member : String × Need × Rule) :
    MemberFinds shape members member fun path =>
      checkMember (checkersOf shape members) path member := by
  rcases member with ⟨key, need, rule⟩
  cases need with
  | required =>
      cases found : members.lookup key with
      | none =>
          simp only [checkMember, checkerFor?, lookup_checkersOf, found, Option.map_none]
          exact .missing
      | some value =>
          simp only [checkMember, checkerFor?, lookup_checkersOf, found, Option.map_some]
          exact .present found
  | optional =>
      cases found : members.lookup key with
      | none =>
          simp only [checkMember, checkerFor?, lookup_checkersOf, found, Option.map_none]
          exact .nothing
      | some value =>
          simp only [checkMember, checkerFor?, lookup_checkersOf, found, Option.map_some]
          exact .present found
  | insteadOf other =>
      cases found : members.lookup key with
      | none =>
          cases foundOther : members.lookup other with
          | none =>
              simp only [checkMember, checkerFor?, lookup_checkersOf, found, foundOther,
                Option.map_none]
              exact .missing
          | some value =>
              simp only [checkMember, checkerFor?, lookup_checkersOf, found, foundOther,
                Option.map_none, Option.map_some]
              exact .instead foundOther
      | some value =>
          cases foundOther : members.lookup other with
          | none =>
              simp only [checkMember, checkerFor?, lookup_checkersOf, found, foundOther,
                Option.map_none, Option.map_some]
              exact .present found
          | some second =>
              simp only [checkMember, checkerFor?, lookup_checkersOf, found, foundOther,
                Option.map_some]
              exact .conflict found

/-- The same, to take apart what is found at some path. -/
theorem exists_memberFinds (shape : Bool → List (String × Need × Rule))
    (members : List (String × Value)) (member : String × Need × Rule) :
    ∃ report, (∀ path, checkMember (checkersOf shape members) path member = report path) ∧
      MemberFinds shape members member report :=
  ⟨_, fun _ => rfl, memberFinds shape members member⟩

/-! ### Values -/

/-- What is found in a list is what is found in its items, in order. -/
theorem checkItems_eq_flatMap (items : List Value) (rule : Rule) (path : String) (start : Nat) :
    checkItems shape items rule path start =
      (items.zipIdx start).flatMap fun entry => check shape entry.1 rule (itemPath path entry.2) := by
  induction items generalizing start with
  | nil => rfl
  | cons item rest inductionHypothesis =>
      rw [checkItems, inductionHypothesis, List.zipIdx_cons, List.flatMap_cons]

/-- Nothing is found, or one violation at the path itself. -/
def AtMostHere (found : String → List Violation) : Prop :=
  (found = fun _ => []) ∨ ∃ message actual, found = fun path => [violation path message actual]

theorem atMostHere_ite (condition : Prop) [Decidable condition] (message : String)
    (actual : Option String) :
    AtMostHere fun path => if condition then [] else [violation path message actual] := by
  by_cases holds : condition
  · simp only [if_pos holds]
    exact Or.inl rfl
  · simp only [if_neg holds]
    exact Or.inr ⟨message, actual, rfl⟩

theorem atMostHere_wrongKind (value : Value) (message : String) :
    AtMostHere fun path => wrongKind value path message :=
  Or.inr ⟨message, some (kindOf value), rfl⟩

/-- A rule that looks at a value as a whole. -/
def Rule.isScalar : Rule → Bool
  | .quad | .map _ | .list _ | .object _ | .node _ => false
  | _ => true

theorem atMostHere_check {rule : Rule} (isScalar : rule.isScalar = true)
    (shape : Bool → List (String × Need × Rule)) (value : Value) :
    AtMostHere (check shape value rule) := by
  cases rule with
  | text => cases value <;> first | exact Or.inl rfl | exact atMostHere_wrongKind _ _
  | flag => cases value <;> first | exact Or.inl rfl | exact atMostHere_wrongKind _ _
  | anyObject => cases value <;> first | exact Or.inl rfl | exact atMostHere_wrongKind _ _
  | number bound =>
      cases value with
      | integer number => exact atMostHere_ite _ _ _
      | float number => exact atMostHere_ite _ _ _
      | _ => exact atMostHere_wrongKind _ _
  | oneOf names =>
      cases value with
      | string text => exact atMostHere_ite _ _ _
      | _ => exact atMostHere_wrongKind _ _
  | integer least =>
      cases value with
      | integer number => exact atMostHere_ite _ _ _
      | _ => exact Or.inr ⟨_, _, rfl⟩
  | instant =>
      rw [show check shape value .instant = checkInstant value from
        funext fun path => check_instant shape value path]
      exact atMostHere_ite _ _ _
  | _ => simp [Rule.isScalar] at isScalar

/-- The rule of the items, where a rule is one of lists. -/
def itemRule? : Rule → Option Rule
  | .quad => some (.number .any)
  | .list rule => some rule
  | _ => none

/-- The rules of the members, where a rule is one of objects with known members. -/
def memberRules? (shape : Bool → List (String × Need × Rule)) :
    Rule → Option (List (String × Need × Rule))
  | .object rules => some rules
  | .node isPartial => some (shape isPartial)
  | _ => none

/-- Induction over a check. What is claimed of the violations of a value, as a function
of the path, may be assumed for whatever stands inside the value, under every rule. -/
@[elab_as_elim] theorem check_induction (shape : Bool → List (String × Need × Rule))
    {motive : Value → Rule → (String → List Violation) → Prop}
    (nothing : ∀ value rule, motive value rule fun _ => [])
    (here : ∀ value rule message actual,
      motive value rule fun path => [violation path message actual])
    (items : ∀ inside rule item, itemRule? rule = some item →
      (∀ value ∈ inside, ∀ rule, motive value rule (check shape value rule)) →
      motive (.array inside) rule fun path => checkItems shape inside item path 0)
    (entries : ∀ members entry,
      (∀ member ∈ members, ∀ rule, motive member.2 rule (check shape member.2 rule)) →
      motive (.object members) (.map entry) fun path => members.flatMap fun member =>
        check shape member.2 entry (memberPath path member.1))
    (members : ∀ members rule rules, memberRules? shape rule = some rules →
      (∀ member ∈ members, ∀ rule, motive member.2 rule (check shape member.2 rule)) →
      motive (.object members) rule fun path =>
        checkMembers rules (checkersOf shape members) path)
    (value : Value) : ∀ rule, motive value rule (check shape value rule) := by
  have atMostHere : ∀ value rule found, AtMostHere found → motive value rule found := by
    rintro value rule found (rfl | ⟨message, actual, rfl⟩)
    · exact nothing value rule
    · exact here value rule message actual
  have scalar : ∀ value rule, rule.isScalar = true → motive value rule (check shape value rule) :=
    fun value rule isScalar => atMostHere _ _ _ (atMostHere_check isScalar shape value)
  have wrong : ∀ value rule message, motive value rule fun path => wrongKind value path message :=
    fun value rule message => atMostHere _ _ _ (atMostHere_wrongKind value message)
  induction value using Value.induction with
  | array inside inductionHypothesis =>
      intro rule
      cases rule with
      | list item => exact items inside _ item rfl inductionHypothesis
      | quad =>
          by_cases four : inside.length = 4
          · rw [show check shape (.array inside) .quad =
                fun path => checkItems shape inside (.number .any) path 0 from
              funext fun path => if_pos four]
            exact items inside _ _ rfl inductionHypothesis
          · rw [show check shape (.array inside) .quad = fun path => [violation path
                "expected exactly 4 numbers" (some s!"{inside.length} items")] from
              funext fun path => if_neg four]
            exact here _ _ _ _
      | map | object | node => exact wrong _ _ _
      | _ => exact scalar _ _ rfl
  | object inside inductionHypothesis =>
      intro rule
      cases rule with
      | map entry =>
          have walked := entries inside entry inductionHypothesis
          simpa only [check, checkersOf_eq_map, List.flatMap_map] using walked
      | object rules => exact members inside _ rules rfl inductionHypothesis
      | node isPartial => exact members inside _ _ rfl inductionHypothesis
      | quad | list => exact wrong _ _ _
      | _ => exact scalar _ _ rfl
  | _ =>
      intro rule
      cases rule with
      | quad | map | list | object | node => exact wrong _ _ _
      | _ => exact scalar _ _ rfl

end Wireframe.Check
