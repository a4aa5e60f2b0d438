import Wireframe.Codec.Record
import Wireframe.Proofs.Json.Order

/-!
Contract: members of records in objects that hold each key once.

Owns:
- what the look-up of a member finds, by its name and its aliases;
- `Written`, what look-ups show of members as they are written, and that an
  encoded object shows all of them.

Does not own: the rules that objects are held to.
-/

namespace Wireframe

open Json Codec

/-! ### Results -/

namespace Codec

theorem Outcome.pair_eq_found {α β : Type} {left : Outcome α} {right : Outcome β}
    {values : α × β} :
    left.pair right = .found values ↔ left = .found values.1 ∧ right = .found values.2 := by
  obtain ⟨first, second⟩ := values
  cases left <;> cases right <;> simp [Outcome.pair]
  split <;> simp

theorem exists_of_map_eq_ok {ε α β : Type} {make : α → β} {result : Except ε α} {value : β}
    (maps : result.map make = .ok value) : ∃ inner, result = .ok inner ∧ make inner = value := by
  cases result with
  | ok inner => exact ⟨inner, rfl, Except.ok.inj maps⟩
  | error failure => exact absurd maps nofun

theorem Outcome.toExcept_eq_ok {α : Type} {outcome : Outcome α} {value : α} :
    outcome.toExcept = .ok value ↔ outcome = .found value := by
  cases outcome <;> simp [Outcome.toExcept]

/-- Null alone is read as an absent value. -/
theorem decode_option_of_ne_null {α : Type} {codec : Codec α} {value : Value}
    (notNull : value ≠ .null) : codec.option.decode value = (codec.decode value).map some := by
  cases value with
  | null => exact absurd rfl notNull
  | _ => rfl

end Codec

/-! ### Looking for a member -/

namespace Json.Value

variable {α : Type}

theorem filter_eq_of_fresh {name : String} {members : List (String × α)}
    (fresh : name ∉ members.map Prod.fst) :
    members.filter (fun member => member.1 == name) = [] := by
  rw [List.filter_eq_nil_iff]
  intro member isMember same
  exact fresh (beq_iff_eq.mp same ▸ List.mem_map_of_mem isMember)

/-- Among different keys, the members of a name are what the look-up finds. -/
theorem filter_eq_lookup {name : String} {members : List (String × α)}
    (distinct : (members.map Prod.fst).Nodup) :
    (members.filter (fun member => member.1 == name)).map Prod.snd =
      (members.lookup name).toList := by
  induction members with
  | nil => rfl
  | cons member rest inductionHypothesis =>
      obtain ⟨key, value⟩ := member
      obtain ⟨fresh, restDistinct⟩ := List.nodup_cons.mp distinct
      rw [lookup_cons_eq_ite]
      by_cases same : name = key
      · subst same
        rw [List.filter_cons_of_pos (by simp), filter_eq_of_fresh fresh, if_pos rfl]
        rfl
      · rw [List.filter_cons_of_neg (by simpa using fun equal => same equal.symm),
          inductionHypothesis restDistinct, if_neg same]

theorem mem_of_lookup {name : String} {value : α} {members : List (String × α)}
    (found : members.lookup name = some value) : (name, value) ∈ members := by
  obtain ⟨before, after, equal, -⟩ := List.lookup_eq_some_iff.mp found
  rw [equal]
  exact List.mem_append_right _ (List.mem_cons_self ..)

theorem lookup_of_mem {member : String × α} {members : List (String × α)}
    (distinct : (members.map Prod.fst).Nodup) (isMember : member ∈ members) :
    members.lookup member.1 = some member.2 := by
  induction members with
  | nil => exact absurd isMember List.not_mem_nil
  | cons first rest inductionHypothesis =>
      obtain ⟨fresh, restDistinct⟩ := List.nodup_cons.mp distinct
      rw [lookup_cons_eq_ite]
      rcases List.mem_cons.mp isMember with rfl | later
      · exact if_pos rfl
      · have different : member.1 ≠ first.1 := by
          intro same
          exact fresh (same ▸ List.mem_map_of_mem later)
        rw [if_neg different]
        exact inductionHypothesis restDistinct later

/-- Members in order are known by their look-ups. -/
theorem Ascending.eq_of_lookup {members others : List (String × α)}
    (ascending : Ascending members) (ascendingOthers : Ascending others)
    (same : ∀ key, members.lookup key = others.lookup key) : members = others := by
  have different : ∀ earlier later : String × α, earlier.1 < later.1 → earlier ≠ later := by
    rintro earlier later below rfl
    exact String.lt_irrefl _ below
  have nodup : members.Nodup := ascending.imp (different _ _)
  have nodupOthers : others.Nodup := ascendingOthers.imp (different _ _)
  have isPerm : members.Perm others := by
    rw [List.perm_ext_iff_of_nodup nodup nodupOthers]
    intro member
    constructor
    · intro isMember
      exact mem_of_lookup ((same _).symm.trans (lookup_of_mem ascending.nodup isMember))
    · intro isMember
      exact mem_of_lookup ((same _).trans (lookup_of_mem ascendingOthers.nodup isMember))
  apply isPerm.eq_of_pairwise _ ascending ascendingOthers
  intro earlier later _ _ below above
  exact absurd (String.lt_trans below above) (String.lt_irrefl _)

end Json.Value

namespace Codec.Field

variable {α : Type} {field : Field α}

private theorem given_values_from (field : Field α) (members : List (String × Value))
    (start : Nat) :
    ((members.zipIdx start).filterMap fun entry =>
        if field.answersTo entry.1.1 then some (entry.2, entry.1.2) else none).map Prod.snd =
      (members.filter fun member => field.answersTo member.1).map Prod.snd := by
  induction members generalizing start with
  | nil => rfl
  | cons member rest inductionHypothesis =>
      rw [List.zipIdx_cons, List.filterMap_cons, List.filter_cons]
      by_cases answers : field.answersTo member.1 = true
      · simp only [if_pos answers, List.map_cons]
        rw [inductionHypothesis]
      · simp only [if_neg answers]
        exact inductionHypothesis (start + 1)

/-- The values given for a member, their places aside. -/
theorem given_values (field : Field α) (members : List (String × Value)) :
    (field.given members).map Prod.snd =
      (members.filter fun member => field.answersTo member.1).map Prod.snd :=
  given_values_from field members 0

/-- A member that is not there reads as its default, if it has one. -/
theorem find_of_unanswered {members : List (String × Value)} {value : α}
    (unanswered : (members.filter fun member => field.answersTo member.1).map Prod.snd = [])
    (absent : field.presence.absent = some value) : field.find members = .found value := by
  have given : field.given members = [] := by
    rw [← List.map_eq_nil_iff, given_values, unanswered]
  unfold find
  rw [given]
  simp only [absent]

/-- The only value given for a member is the one that is decoded. -/
theorem find_of_answered {members : List (String × Value)} {value : Value} {decoded : α}
    (only : (members.filter fun member => field.answersTo member.1).map Prod.snd = [value])
    (decodes : field.codec.decode value = .ok decoded) :
    field.find members = .found decoded := by
  obtain ⟨place, given⟩ : ∃ place, field.given members = [(place, value)] := by
    rw [← given_values, List.map_eq_singleton_iff] at only
    obtain ⟨⟨place, entry⟩, given, rfl⟩ := only
    exact ⟨place, given⟩
  unfold find
  rw [given]
  simp only [decodes]

/-- A member none of whose aliases is there is found by its name. -/
theorem filter_answersTo_of_no_alias {members : List (String × Value)}
    (absent : ∀ other ∈ field.aliases, members.lookup other = none)
    (distinct : (members.map Prod.fst).Nodup) :
    (members.filter fun member => field.answersTo member.1).map Prod.snd =
      (members.lookup field.name).toList := by
  rw [← Value.filter_eq_lookup distinct]
  congr 1
  apply List.filter_congr
  intro member isMember
  have notAlias : field.aliases.contains member.1 = false := by
    rw [Bool.eq_false_iff]
    intro isAlias
    have missing := List.lookup_eq_none_iff.mp
      (absent member.1 (List.contains_iff_mem.mp isAlias)) member isMember
    simp at missing
  rw [answersTo, notAlias, Bool.or_false]

/-- A member whose name is not there is found by its only alias. -/
theorem filter_answersTo_alias {members : List (String × Value)} {other : String}
    (aliases : field.aliases = [other]) (absent : members.lookup field.name = none)
    (distinct : (members.map Prod.fst).Nodup) :
    (members.filter fun member => field.answersTo member.1).map Prod.snd =
      (members.lookup other).toList := by
  rw [← Value.filter_eq_lookup distinct]
  congr 1
  apply List.filter_congr
  intro member isMember
  have notName : (member.1 == field.name) = false := by
    have missing := List.lookup_eq_none_iff.mp absent member isMember
    rw [bne_iff_ne] at missing
    exact beq_false_of_ne fun same => missing same.symm
  rw [answersTo, notName, aliases, Bool.false_or, List.contains_cons, List.contains_nil,
    Bool.or_false]

theorem filter_answersTo {members : List (String × Value)} (noAliases : field.aliases = [])
    (distinct : (members.map Prod.fst).Nodup) :
    (members.filter fun member => field.answersTo member.1).map Prod.snd =
      (members.lookup field.name).toList := by
  refine filter_answersTo_of_no_alias ?_ distinct
  rw [noAliases]
  exact List.forall_mem_nil _

/-- A member that is found is either not given and has a default, or given once and
decodes. -/
theorem answers_of_find_eq_found {members : List (String × Value)} {value : α}
    (found : field.find members = .found value) :
    ((members.filter fun member => field.answersTo member.1).map Prod.snd = [] ∧
        field.presence.absent = some value) ∨
      ∃ given, (members.filter fun member => field.answersTo member.1).map Prod.snd = [given] ∧
        field.codec.decode given = .ok value := by
  unfold find at found
  rw [← given_values]
  cases given : field.given members with
  | nil =>
      rw [given] at found
      cases default : field.presence.absent with
      | none => simp [default] at found
      | some other => simp_all
  | cons first others =>
      rw [given] at found
      cases decodes : field.codec.decode first.2 with
      | error error => simp [decodes] at found
      | ok decoded =>
          cases others with
          | nil => simp_all
          | cons second rest => simp [decodes] at found

theorem find_eq_found_iff {members : List (String × Value)} {value : α} :
    field.find members = .found value ↔
      ((members.filter fun member => field.answersTo member.1).map Prod.snd = [] ∧
          field.presence.absent = some value) ∨
        ∃ given, (members.filter fun member => field.answersTo member.1).map Prod.snd = [given] ∧
          field.codec.decode given = .ok value := by
  refine ⟨answers_of_find_eq_found, ?_⟩
  rintro (⟨unanswered, absent⟩ | ⟨given, only, decodes⟩)
  · exact find_of_unanswered unanswered absent
  · exact find_of_answered only decodes

/-- A member without aliases that is found is either absent and has a default,
or decodes. -/
theorem of_find_eq_found {members : List (String × Value)} {value : α}
    (noAliases : field.aliases = []) (distinct : (members.map Prod.fst).Nodup)
    (found : field.find members = .found value) :
    (members.lookup field.name = none ∧ field.presence.absent = some value) ∨
      ∃ given, members.lookup field.name = some given ∧
        field.codec.decode given = .ok value := by
  have outcome := answers_of_find_eq_found found
  simp only [filter_answersTo noAliases distinct] at outcome
  cases present : members.lookup field.name with
  | none => simpa [present] using outcome
  | some given => simpa [present] using outcome

/-- What look-ups show of a member as it is written: its value, if it is not
omitted, and nothing under its aliases. -/
def Written (field : Field α) (value : α) (find : String → Option Value) : Prop :=
  find field.name =
      (if field.presence.isWritten value then some (field.codec.encode value).sortKeys
        else none) ∧
    ∀ other ∈ field.aliases, find other = none

end Codec.Field

namespace Codec.Fields

/-- The names under which members are written. -/
def names {γ : Type} : Fields γ → List String
  | .nil => []
  | .cons head tail => head.name :: tail.names

/-- The names under which members are read. -/
def keys {γ : Type} : Fields γ → List String
  | .nil => []
  | .cons head tail => (head.name :: head.aliases) ++ tail.keys

/-- What look-ups show of members as they are written. -/
def Written {γ : Type} : Fields γ → γ → (String → Option Value) → Prop
  | .nil, _, _ => True
  | .cons head tail, (value, values), find =>
      head.Written value find ∧ tail.Written values find

theorem mem_keys_of_mem_names {γ : Type} {fields : Fields γ} {name : String}
    (isName : name ∈ fields.names) : name ∈ fields.keys := by
  induction fields with
  | nil => exact isName
  | cons head tail inductionHypothesis =>
      rcases List.mem_cons.mp isName with equal | later
      · exact List.mem_append_left _ (List.mem_cons.mpr (Or.inl equal))
      · exact List.mem_append_right _ (inductionHypothesis later)

/-- Members are written under their names. -/
theorem encode_keys_sublist {γ : Type} (fields : Fields γ) (values : γ) :
    ((fields.encode values).map Prod.fst).Sublist fields.names := by
  induction fields with
  | nil => exact List.Sublist.refl _
  | cons head tail inductionHypothesis =>
      obtain ⟨value, values⟩ := values
      rw [encode, List.map_append, names]
      unfold Field.encode
      split
      · exact (inductionHypothesis values).cons_cons head.name
      · exact (inductionHypothesis values).cons head.name

theorem names_sublist_keys {γ : Type} (fields : Fields γ) :
    fields.names.Sublist fields.keys := by
  induction fields with
  | nil => exact List.Sublist.refl _
  | cons head tail inductionHypothesis =>
      rw [names, keys, List.cons_append]
      exact ((inductionHypothesis).trans (List.sublist_append_right _ _)).cons_cons head.name

/-- Look-ups among encoded members, keys in order inside them, behind others
whose keys are none of theirs. -/
private theorem written_lookup {γ : Type} (fields : Fields γ) (values : γ)
    (before : List (String × Value)) (distinct : fields.keys.Nodup)
    (apart : ∀ key ∈ fields.keys, key ∉ before.map Prod.fst) :
    fields.Written values fun key =>
      ((before ++ fields.encode values).lookup key).map Value.sortKeys := by
  induction fields generalizing before with
  | nil => trivial
  | cons head tail inductionHypothesis =>
      obtain ⟨value, values⟩ := values
      rw [keys, List.nodup_append] at distinct
      obtain ⟨headDistinct, tailDistinct, headTail⟩ := distinct
      have notBefore : ∀ key ∈ head.name :: head.aliases, key ∉ before.map Prod.fst :=
        fun key isKey => apart key (List.mem_append_left _ isKey)
      have notAfter : ∀ key ∈ head.name :: head.aliases,
          (tail.encode values).lookup key = none := by
        intro key isKey
        apply Value.lookup_eq_none_of_fresh
        intro later
        exact headTail key isKey key
          (mem_keys_of_mem_names ((tail.encode_keys_sublist values).subset later)) rfl
      refine ⟨⟨?_, ?_⟩, ?_⟩
      · simp only [encode, List.lookup_append,
          Value.lookup_eq_none_of_fresh (notBefore head.name (List.mem_cons_self ..)),
          notAfter head.name (List.mem_cons_self ..), Field.encode, Option.none_or,
          Option.or_none]
        split
        · simp
        · rfl
      · intro other isAlias
        have different : other ≠ head.name := by
          rintro rfl
          exact (List.nodup_cons.mp headDistinct).1 isAlias
        have headAbsent : (head.encode value).lookup other = none := by
          unfold Field.encode
          split
          · rw [Value.lookup_cons_eq_ite, if_neg different]
            rfl
          · rfl
        simp only [encode, List.lookup_append,
          Value.lookup_eq_none_of_fresh (notBefore other (List.mem_cons_of_mem _ isAlias)),
          notAfter other (List.mem_cons_of_mem _ isAlias), headAbsent]
        rfl
      · have shifted : before ++ encode (.cons head tail) (value, values) =
            (before ++ head.encode value) ++ tail.encode values := by
          rw [encode, List.append_assoc]
        simp only [shifted]
        apply inductionHypothesis values _ tailDistinct
        intro key isKey isBefore
        rw [List.map_append, List.mem_append] at isBefore
        rcases isBefore with early | own
        · exact apart key (List.mem_append_right _ isKey) early
        · unfold Field.encode at own
          split at own
          · exact headTail head.name (List.mem_cons_self ..) key isKey
              (List.mem_singleton.mp own).symm
          · exact absurd own List.not_mem_nil

/-- An object of encoded members, its keys in order, shows each of them. -/
theorem written_encode {γ : Type} (fields : Fields γ) (values : γ)
    (distinct : fields.keys.Nodup) :
    ∃ members, (Value.object (fields.encode values)).sortKeys = .object members ∧
      (members.map Prod.fst).Nodup ∧ fields.Written values fun key => members.lookup key := by
  have keysDistinct : ((fields.encode values).map Prod.fst).Nodup :=
    (distinct.sublist fields.names_sublist_keys).sublist (fields.encode_keys_sublist values)
  obtain ⟨members, isSorted, sortedDistinct, lookups⟩ :=
    Value.exists_sortKeys_object keysDistinct
  refine ⟨members, isSorted, sortedDistinct, ?_⟩
  simp only [lookups]
  exact written_lookup fields values [] distinct fun _ _ => List.not_mem_nil

end Codec.Fields

end Wireframe
