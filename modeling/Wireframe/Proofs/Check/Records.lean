import Wireframe.Proofs.Check.Agreement
import Wireframe.Proofs.Codec.Members

/-!
Contract: agreement of records, put together from the agreement of members.

Owns:
- `FieldAgrees`, one member of a record against the rules of its object;
- `FieldsAgree`, all of them, and `agrees_record`.

Members of a record and rules of an object are matched by name; they need not
stand in one order, and a member may have no rule.
-/

namespace Wireframe.Check

open Json Codec

/-- The members of an object as data holds them, nested at most `inner` deep. -/
structure Held (inner : Nat) (members : List (String × Value)) : Prop where
  ascending : Value.Ascending members
  ordered : ∀ member ∈ members, member.2.Ordered
  shallow : ∀ member ∈ members, member.2.depth ≤ inner

/-! ### The checker of members -/

section Members

variable {rules : List (String × Need × Rule)} {members : List (String × Value)}
  {path name : String} {rule : Rule}

theorem lookup_checkersOf (shape : Bool → List (String × Need × Rule)) (key : String) :
    (checkersOf shape members).lookup key = (members.lookup key).map (check shape) := by
  rw [checkersOf_eq_map, Value.lookup_map_values]

theorem checkMember_of_present {need : Need} {value : Value}
    (plain : need = .required ∨ need = .optional)
    (present : members.lookup name = some value) :
    checkMember (checkersOf nodeShape members) path (name, need, rule) =
      check nodeShape value rule (memberPath path name) := by
  rcases plain with rfl | rfl
  · simp only [checkMember, checkerFor?, lookup_checkersOf, present, Option.map_some]
  · simp only [checkMember, checkerFor?, lookup_checkersOf, present, Option.map_some]

theorem checkMember_optional_of_absent (absent : members.lookup name = none) :
    checkMember (checkersOf nodeShape members) path (name, .optional, rule) = [] := by
  simp only [checkMember, checkerFor?, lookup_checkersOf, absent, Option.map_none]

theorem present_of_checkMember_required
    (passed : checkMember (checkersOf nodeShape members) path (name, .required, rule) = []) :
    ∃ value, members.lookup name = some value := by
  cases found : members.lookup name with
  | some value => exact ⟨value, rfl⟩
  | none =>
      simp only [checkMember, checkerFor?, lookup_checkersOf, found, Option.map_none] at passed
      exact absurd passed (List.cons_ne_nil _ _)

theorem checkMember_insteadOf_of_present {other : String} {value : Value}
    (present : members.lookup name = some value) (absent : members.lookup other = none) :
    checkMember (checkersOf nodeShape members) path (name, .insteadOf other, rule) =
      check nodeShape value rule (memberPath path name) := by
  simp only [checkMember, checkerFor?, lookup_checkersOf, present, absent, Option.map_some,
    Option.map_none]

/-- Of a member and the one that stands for it, exactly one is there. -/
theorem present_of_checkMember_insteadOf {other : String}
    (passed : checkMember (checkersOf nodeShape members) path
      (name, .insteadOf other, rule) = []) :
    (∃ value, members.lookup name = some value ∧ members.lookup other = none ∧
        check nodeShape value rule (memberPath path name) = []) ∨
      ∃ value, members.lookup name = none ∧ members.lookup other = some value ∧
        check nodeShape value rule (memberPath path other) = [] := by
  cases own : members.lookup name with
  | none =>
      cases instead : members.lookup other with
      | none => simp [checkMember, checkerFor?, lookup_checkersOf, own, instead] at passed
      | some value =>
          simp only [checkMember, checkerFor?, lookup_checkersOf, own, instead,
            Option.map_some, Option.map_none] at passed
          exact Or.inr ⟨value, rfl, rfl, passed⟩
  | some value =>
      cases instead : members.lookup other with
      | none =>
          rw [checkMember_insteadOf_of_present own instead] at passed
          exact Or.inl ⟨value, rfl, rfl, passed⟩
      | some second => simp [checkMember, checkerFor?, lookup_checkersOf, own, instead] at passed

/-- Where all members pass, each does. -/
theorem checkMember_eq_nil {need : Need}
    (governed : rules.lookup name = some (need, rule))
    (passed : checkMembers rules (checkersOf nodeShape members) path = []) :
    checkMember (checkersOf nodeShape members) path (name, need, rule) = [] := by
  rw [checkMembers, List.flatMap_eq_nil_iff] at passed
  exact passed _ (Value.mem_of_lookup governed)

end Members

/-! ### One member -/

/-- A member of a record agrees with the rules of its object: where the rules
pass, it is found, and as it is written it passes and is found again. -/
structure FieldAgrees {α : Type} (inner : Nat) (rules : List (String × Need × Rule))
    (field : Codec.Field α) (sound : α → Prop) : Prop where
  finds : ∀ members path, Held inner members →
    checkMembers rules (checkersOf nodeShape members) path = [] →
    ∃ value, field.find members = .found value ∧ sound value ∧
      ∀ member ∈ field.encode value, member.2.depth ≤ inner
  restores : ∀ members value, sound value →
    (∀ member ∈ field.encode value, member.2.depth ≤ inner) →
    (members.map Prod.fst).Nodup → field.Written value (members.lookup ·) →
    field.find members = .found value
  passes : ∀ members value need rule path, sound value →
    (∀ member ∈ field.encode value, member.2.depth ≤ inner) →
    field.Written value (members.lookup ·) →
    rules.lookup field.name = some (need, rule) →
    checkMember (checkersOf nodeShape members) path (field.name, need, rule) = []

section Fields

variable {α : Type} {inner : Nat} {rules : List (String × Need × Rule)} {name : String}
  {rule : Rule} {codec : Codec α} {sound : α → Prop}

theorem depth_le_of_mem_encode {field : Codec.Field α} {value : α}
    (shallow : (field.codec.encode value).depth ≤ inner) :
    ∀ member ∈ field.encode value, member.2.depth ≤ inner := by
  unfold Field.encode
  split
  · exact List.forall_mem_singleton.mpr shallow
  · exact List.forall_mem_nil _

theorem depth_le_of_written {field : Codec.Field α} {value : α}
    (written : field.presence.isWritten value = true)
    (shallow : ∀ member ∈ field.encode value, member.2.depth ≤ inner) :
    (field.codec.encode value).depth ≤ inner := by
  unfold Field.encode at shallow
  rw [if_pos written] at shallow
  exact shallow _ (List.mem_singleton_self _)

/-- A member without aliases, from what its rule and its codec make of one value.
An absent member needs a default, and an omitted value has to be that default. -/
theorem fieldAgrees_plain {field : Codec.Field α} {need : Need} (noAliases : field.aliases = [])
    (governed : rules.lookup field.name = some (need, rule))
    (plain : need = .required ∨ need = .optional)
    (decodes : ∀ value path, value.Ordered → value.depth ≤ inner →
      check nodeShape value rule path = [] →
      ∃ decoded, field.codec.decode value = .ok decoded ∧ sound decoded ∧
        ∀ member ∈ field.encode decoded, member.2.depth ≤ inner)
    (absent : need = .optional → ∃ value, field.presence.absent = some value ∧
      sound value ∧ ∀ member ∈ field.encode value, member.2.depth ≤ inner)
    (written : ∀ value, sound value → field.presence.isWritten value = true →
      (field.codec.encode value).depth ≤ inner →
      field.codec.decode (field.codec.encode value).sortKeys = .ok value ∧
        ∀ path, check nodeShape (field.codec.encode value).sortKeys rule path = [])
    (omitted : ∀ value, field.presence.isWritten value = false →
      need = .optional ∧ field.presence.absent = some value) :
    FieldAgrees inner rules field sound where
  finds := by
    intro members path held passed
    have passedHere := checkMember_eq_nil governed passed
    cases found : members.lookup field.name with
    | none =>
        rcases plain with rfl | rfl
        · obtain ⟨value, present⟩ := present_of_checkMember_required passedHere
          exact absurd (found.symm.trans present) (Option.some_ne_none value).symm
        · obtain ⟨value, isDefault, soundHere⟩ := absent rfl
          refine ⟨value, Field.find_of_unanswered ?_ isDefault, soundHere⟩
          rw [Field.filter_answersTo noAliases held.ascending.nodup, found]
          rfl
    | some value =>
        have isMember := Value.mem_of_lookup found
        rw [checkMember_of_present plain found] at passedHere
        obtain ⟨decoded, decodesHere, soundHere⟩ := decodes value _
          (held.ordered _ isMember) (held.shallow _ isMember) passedHere
        refine ⟨decoded, Field.find_of_answered ?_ decodesHere, soundHere⟩
        rw [Field.filter_answersTo noAliases held.ascending.nodup, found]
        rfl
  restores := by
    intro members value soundHere shallow distinct shown
    have lookup : members.lookup field.name = _ := shown.1
    cases isWritten : field.presence.isWritten value with
    | true =>
        refine Field.find_of_answered ?_
          (written value soundHere isWritten (depth_le_of_written isWritten shallow)).1
        rw [Field.filter_answersTo noAliases distinct, lookup, if_pos isWritten]
        rfl
    | false =>
        refine Field.find_of_unanswered ?_ (omitted value isWritten).2
        rw [Field.filter_answersTo noAliases distinct, lookup, isWritten]
        rfl
  passes := by
    intro members value otherNeed otherRule path soundHere shallow shown governedHere
    obtain ⟨rfl, rfl⟩ : need = otherNeed ∧ rule = otherRule := by
      rw [← Prod.mk.injEq, ← Option.some.injEq, ← governed]
      exact governedHere
    have lookup : members.lookup field.name = _ := shown.1
    cases isWritten : field.presence.isWritten value with
    | true =>
        rw [if_pos isWritten] at lookup
        rw [checkMember_of_present plain lookup]
        exact (written value soundHere isWritten (depth_le_of_written isWritten shallow)).2 _
    | false =>
        rw [isWritten] at lookup
        obtain ⟨rfl, -⟩ := omitted value isWritten
        exact checkMember_optional_of_absent lookup

theorem fieldAgrees_needed (agrees : Agrees inner rule codec sound)
    (governed : rules.lookup name = some (.required, rule)) :
    FieldAgrees inner rules (.needed name codec) sound := by
  refine fieldAgrees_plain rfl governed (Or.inl rfl) ?_ nofun ?_ nofun
  · intro value path ordered shallow passed
    obtain ⟨decoded, decodes, soundHere, within⟩ :=
      agrees.decodes value path ordered shallow passed
    exact ⟨decoded, decodes, soundHere, depth_le_of_mem_encode within⟩
  · intro value soundHere _ within
    exact ⟨agrees.restores value soundHere within,
      fun path => agrees.passes value path soundHere within⟩

/-- A member that is always written and may be absent. -/
theorem fieldAgrees_defaulting {default : α} (agrees : Agrees inner rule codec sound)
    (governed : rules.lookup name = some (.optional, rule)) (soundDefault : sound default)
    (shallowDefault : (codec.encode default).depth ≤ inner) :
    FieldAgrees inner rules (.defaulting name codec default) sound := by
  refine fieldAgrees_plain rfl governed (Or.inr rfl) ?_ ?_ ?_ nofun
  · intro value path ordered shallow passed
    obtain ⟨decoded, decodes, soundHere, within⟩ :=
      agrees.decodes value path ordered shallow passed
    exact ⟨decoded, decodes, soundHere, depth_le_of_mem_encode within⟩
  · intro _
    exact ⟨default, rfl, soundDefault, depth_le_of_mem_encode shallowDefault⟩
  · intro value soundHere _ within
    exact ⟨agrees.restores value soundHere within,
      fun path => agrees.passes value path soundHere within⟩

/-- A list or map that is written unless it is empty. -/
theorem fieldAgrees_unlessEmpty {codec : Codec (List α)} {sound : List α → Prop}
    (agrees : Agrees inner rule codec sound)
    (governed : rules.lookup name = some (.optional, rule)) (soundEmpty : sound []) :
    FieldAgrees inner rules (.unlessEmpty name codec) sound := by
  refine fieldAgrees_plain rfl governed (Or.inr rfl) ?_ ?_ ?_ ?_
  · intro value path ordered shallow passed
    obtain ⟨decoded, decodes, soundHere, within⟩ :=
      agrees.decodes value path ordered shallow passed
    exact ⟨decoded, decodes, soundHere, depth_le_of_mem_encode within⟩
  · intro _
    exact ⟨[], rfl, soundEmpty, List.forall_mem_nil _⟩
  · intro value soundHere _ within
    exact ⟨agrees.restores value soundHere within,
      fun path => agrees.passes value path soundHere within⟩
  · intro value isOmitted
    cases value with
    | nil => exact ⟨rfl, rfl⟩
    | cons head tail => exact absurd isOmitted Bool.false_ne_true.symm

/-- A member that may be absent and is written when it has a value. -/
theorem fieldAgrees_optional (agrees : Agrees inner rule codec sound)
    (governed : rules.lookup name = some (.optional, rule)) :
    FieldAgrees inner rules (.optional name codec)
      fun value => ∀ given ∈ value, sound given := by
  refine fieldAgrees_plain rfl governed (Or.inr rfl) ?_ ?_ ?_ ?_
  · intro value path ordered shallow passed
    have notNull : value ≠ .null := by
      rintro rfl
      exact check_null_ne_nil rule path passed
    obtain ⟨decoded, decodes, soundHere, within⟩ :=
      agrees.decodes value path ordered shallow passed
    refine ⟨some decoded, ?_, ?_, depth_le_of_mem_encode within⟩
    · change codec.option.decode value = _
      rw [decode_option_of_ne_null notNull, decodes]
      rfl
    · intro given isGiven
      rwa [← Option.some.inj isGiven]
  · intro _
    exact ⟨none, rfl, nofun, List.forall_mem_nil _⟩
  · intro value soundHere isWritten within
    cases value with
    | none => exact absurd isWritten Bool.false_ne_true
    | some given =>
        have passes := fun path => agrees.passes given path (soundHere given rfl) within
        refine ⟨?_, passes⟩
        have notNull : (codec.encode given).sortKeys ≠ .null := by
          intro isNull
          exact check_null_ne_nil rule rootPath (isNull ▸ passes rootPath)
        change codec.option.decode (codec.encode given).sortKeys = _
        rw [decode_option_of_ne_null notNull,
          agrees.restores given (soundHere given rfl) within]
        rfl
  · intro value isOmitted
    cases value with
    | none => exact ⟨rfl, rfl⟩
    | some given => exact absurd isOmitted Bool.false_ne_true.symm

/-- A member of any value, without a rule: null reads as its absence, so no null
is ever present. -/
theorem fieldAgrees_free (ungoverned : rules.lookup name = none) :
    FieldAgrees inner rules (.optional name .json)
      fun value => ∀ given ∈ value, given ≠ .null ∧ given.Ordered where
  finds := by
    intro members path held _
    cases found : members.lookup name with
    | none =>
        refine ⟨none, Field.find_of_unanswered ?_ rfl, nofun, List.forall_mem_nil _⟩
        rw [Field.filter_answersTo rfl held.ascending.nodup]
        exact congrArg Option.toList found
    | some value =>
        have isMember := Value.mem_of_lookup found
        have only : (members.filter fun member =>
            (Field.optional name Codec.json).answersTo member.1).map Prod.snd = [value] := by
          rw [Field.filter_answersTo rfl held.ascending.nodup]
          exact congrArg Option.toList found
        by_cases isNull : value = .null
        · subst isNull
          exact ⟨none, Field.find_of_answered only rfl, nofun, List.forall_mem_nil _⟩
        · refine ⟨some value, Field.find_of_answered only (decode_option_of_ne_null isNull),
            ?_, depth_le_of_mem_encode (held.shallow _ isMember)⟩
          intro given isGiven
          rw [← Option.some.inj isGiven]
          exact ⟨isNull, held.ordered _ isMember⟩
  restores := by
    intro members value soundHere _ distinct shown
    have lookup : members.lookup name = _ := shown.1
    cases value with
    | none =>
        refine Field.find_of_unanswered ?_ rfl
        rw [Field.filter_answersTo rfl distinct]
        exact congrArg Option.toList lookup
    | some given =>
        obtain ⟨notNull, ordered⟩ := soundHere given rfl
        refine Field.find_of_answered ?_ (decode_option_of_ne_null notNull)
        rw [Field.filter_answersTo rfl distinct]
        exact (congrArg Option.toList lookup).trans
          (congrArg (fun value => [value]) (Value.sortKeys_of_ordered ordered))
  passes := by
    intro members value need other path _ _ _ governed
    exact absurd (ungoverned.symm.trans governed) (Option.some_ne_none _).symm

/-- A member that has to be there, under its name or under another. -/
theorem fieldAgrees_aliased {other : String} (agrees : Agrees inner rule codec sound)
    (governed : rules.lookup name = some (.insteadOf other, rule)) :
    FieldAgrees inner rules ⟨name, codec, .required, [other]⟩ sound where
  finds := by
    intro members path held passed
    rcases present_of_checkMember_insteadOf (checkMember_eq_nil governed passed) with
      ⟨value, own, absent, passedHere⟩ | ⟨value, absent, instead, passedHere⟩
    · have isMember := Value.mem_of_lookup own
      obtain ⟨decoded, decodes, soundHere, within⟩ := agrees.decodes value _
        (held.ordered _ isMember) (held.shallow _ isMember) passedHere
      refine ⟨decoded, Field.find_of_answered ?_ decodes, soundHere,
        depth_le_of_mem_encode within⟩
      have noAlias : ∀ key ∈ [other], members.lookup key = none := by
        intro key isAlias
        rwa [List.mem_singleton.mp isAlias]
      rw [Field.filter_answersTo_of_no_alias noAlias held.ascending.nodup]
      exact congrArg Option.toList own
    · have isMember := Value.mem_of_lookup instead
      obtain ⟨decoded, decodes, soundHere, within⟩ := agrees.decodes value _
        (held.ordered _ isMember) (held.shallow _ isMember) passedHere
      refine ⟨decoded, Field.find_of_answered ?_ decodes, soundHere,
        depth_le_of_mem_encode within⟩
      rw [Field.filter_answersTo_alias rfl absent held.ascending.nodup]
      exact congrArg Option.toList instead
  restores := by
    intro members value soundHere shallow distinct shown
    obtain ⟨lookup, absent⟩ := shown
    refine Field.find_of_answered ?_
      (agrees.restores value soundHere (depth_le_of_written rfl shallow))
    rw [Field.filter_answersTo_of_no_alias absent distinct]
    exact congrArg Option.toList lookup
  passes := by
    intro members value need otherRule path soundHere shallow shown governedHere
    obtain ⟨rfl, rfl⟩ : Need.insteadOf other = need ∧ rule = otherRule := by
      rw [← Prod.mk.injEq, ← Option.some.injEq, ← governed]
      exact governedHere
    have lookup : members.lookup name = _ := shown.1
    rw [checkMember_insteadOf_of_present lookup (shown.2 other (List.mem_singleton_self _))]
    exact agrees.passes value _ soundHere (depth_le_of_written rfl shallow)

end Fields

/-! ### All members -/

/-- The members of a record agree with the rules of its object. -/
structure FieldsAgree {γ : Type} (inner : Nat) (rules : List (String × Need × Rule))
    (fields : Fields γ) (sound : γ → Prop) : Prop where
  finds : ∀ members path, Held inner members →
    checkMembers rules (checkersOf nodeShape members) path = [] →
    ∃ values, fields.find members = .found values ∧ sound values ∧
      ∀ member ∈ fields.encode values, member.2.depth ≤ inner
  restores : ∀ members values, sound values →
    (∀ member ∈ fields.encode values, member.2.depth ≤ inner) →
    (members.map Prod.fst).Nodup → fields.Written values (members.lookup ·) →
    fields.find members = .found values
  passes : ∀ members values name need rule path, sound values →
    (∀ member ∈ fields.encode values, member.2.depth ≤ inner) →
    fields.Written values (members.lookup ·) → name ∈ fields.names →
    rules.lookup name = some (need, rule) →
    checkMember (checkersOf nodeShape members) path (name, need, rule) = []

section Records

variable {inner : Nat} {rules : List (String × Need × Rule)}

theorem FieldsAgree.nil : FieldsAgree inner rules .nil fun _ => True where
  finds := fun _ _ _ _ => ⟨(), rfl, trivial, List.forall_mem_nil _⟩
  restores := fun _ _ _ _ _ _ => rfl
  passes := by
    intro members values name need rule path _ _ _ isName
    exact absurd isName List.not_mem_nil

theorem FieldsAgree.cons {α γ : Type} {head : Codec.Field α} {tail : Fields γ} {first : α → Prop}
    {others : γ → Prop} (headAgrees : FieldAgrees inner rules head first)
    (tailAgrees : FieldsAgree inner rules tail others) :
    FieldsAgree inner rules (.cons head tail)
      fun values => first values.1 ∧ others values.2 where
  finds := by
    intro members path held passed
    obtain ⟨value, findsHead, soundHead, shallowHead⟩ :=
      headAgrees.finds members path held passed
    obtain ⟨values, findsTail, soundTail, shallowTail⟩ :=
      tailAgrees.finds members path held passed
    refine ⟨(value, values), ?_, ⟨soundHead, soundTail⟩,
      List.forall_mem_append.mpr ⟨shallowHead, shallowTail⟩⟩
    change (head.find members).pair (tail.find members) = _
    rw [findsHead, findsTail]
    rfl
  restores := by
    intro members values soundAll shallow distinct shown
    obtain ⟨value, values⟩ := values
    obtain ⟨shallowHead, shallowTail⟩ := List.forall_mem_append.mp shallow
    change (head.find members).pair (tail.find members) = _
    rw [headAgrees.restores members value soundAll.1 shallowHead distinct shown.1,
      tailAgrees.restores members values soundAll.2 shallowTail distinct shown.2]
    rfl
  passes := by
    intro members values name need rule path soundAll shallow shown isName governed
    obtain ⟨value, values⟩ := values
    obtain ⟨shallowHead, shallowTail⟩ := List.forall_mem_append.mp shallow
    rcases List.mem_cons.mp isName with rfl | later
    · exact headAgrees.passes members value need rule path soundAll.1 shallowHead shown.1
        governed
    · exact tailAgrees.passes members values name need rule path soundAll.2 shallowTail
        shown.2 later governed

variable {α γ : Type} {fields : Fields γ} {build : γ → α} {split : α → γ}
  {sound : γ → Prop}

/-- A record agrees with its object when its members do and every rule is about
one of them. -/
theorem agrees_record {depth : Nat} (label : String)
    (named : ∀ entry ∈ rules, entry.1 ∈ fields.names)
    (rulesDistinct : (rules.map Prod.fst).Nodup) (distinct : fields.keys.Nodup)
    (split_build : ∀ values, split (build values) = values)
    (build_split : ∀ whole, build (split whole) = whole)
    (members : ∀ inner, depth = inner + 1 → FieldsAgree inner rules fields sound) :
    Agrees depth (.object rules) (record label fields build split)
      fun whole => sound (split whole) where
  decodes := by
    intro value path ordered shallow passed
    cases value with
    | object given =>
        obtain ⟨inner, rfl⟩ := Nat.exists_eq_add_of_le'
          (Nat.le_trans (Value.depth_object_pos given) shallow)
        rw [Value.ordered_object] at ordered
        rw [Value.depth_object_le_succ] at shallow
        obtain ⟨values, finds, soundAll, within⟩ :=
          (members inner rfl).finds given path ⟨ordered.1, ordered.2, shallow⟩ passed
        refine ⟨build values, ?_, ?_, ?_⟩
        · change (fields.find given).toExcept.map build = _
          rw [finds]
          rfl
        · rwa [split_build]
        · change (Value.object (fields.encode (split (build values)))).depth ≤ _
          rwa [split_build, Value.depth_object_le_succ]
    | _ => exact absurd passed (wrongKind_ne_nil _ _ _)
  restores := by
    intro whole soundAll shallow
    change (Value.object (fields.encode (split whole))).depth ≤ depth at shallow
    obtain ⟨inner, rfl⟩ := Nat.exists_eq_add_of_le'
      (Nat.le_trans (Value.depth_object_pos _) shallow)
    rw [Value.depth_object_le_succ] at shallow
    obtain ⟨given, sorted, givenDistinct, shown⟩ :=
      fields.written_encode (split whole) distinct
    change (decodeFields label fields
      (Value.object (fields.encode (split whole))).sortKeys).map build = _
    rw [sorted]
    change (fields.find given).toExcept.map build = _
    rw [(members inner rfl).restores given _ soundAll shallow givenDistinct shown]
    exact congrArg Except.ok (build_split whole)
  passes := by
    intro whole path soundAll shallow
    change (Value.object (fields.encode (split whole))).depth ≤ depth at shallow
    obtain ⟨inner, rfl⟩ := Nat.exists_eq_add_of_le'
      (Nat.le_trans (Value.depth_object_pos _) shallow)
    rw [Value.depth_object_le_succ] at shallow
    obtain ⟨given, sorted, -, shown⟩ := fields.written_encode (split whole) distinct
    change check nodeShape (Value.object (fields.encode (split whole))).sortKeys _ _ = _
    rw [sorted]
    change checkMembers rules (checkersOf nodeShape given) path = []
    rw [checkMembers, List.flatMap_eq_nil_iff]
    intro entry isMember
    exact (members inner rfl).passes given _ entry.1 entry.2.1 entry.2.2 path soundAll shallow
      shown (named entry isMember) (Value.lookup_of_mem rulesDistinct isMember)

end Records

end Wireframe.Check
