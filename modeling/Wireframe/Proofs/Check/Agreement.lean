import Wireframe.Check.Shape
import Wireframe.Codec.Timestamp
import Wireframe.Proofs.Calendar.Timestamp
import Wireframe.Proofs.Json.Depth

/-!
Contract: when a shape rule and a codec describe the same data.

Owns:
- `Agrees`, both directions at once: what the rule passes decodes, and what is
  encoded passes the rule and decodes again;
- the agreement of every scalar, of lists, quadruples and maps.

Does not own: records, which are put together from members.
-/

namespace Wireframe.Check

open Json Codec Number Calendar

/-- A rule and a codec agree on data nested at most `depth` deep; `sound` says
which typed values such data stands for. The depth bounds what is encoded, too,
so that agreement on a tree can be shown level by level. -/
structure Agrees {α : Type} (depth : Nat) (rule : Rule) (codec : Codec α)
    (sound : α → Prop) : Prop where
  decodes : ∀ value path, value.Ordered → value.depth ≤ depth →
    check nodeShape value rule path = [] →
    ∃ decoded, codec.decode value = .ok decoded ∧ sound decoded ∧
      (codec.encode decoded).depth ≤ depth
  restores : ∀ decoded, sound decoded → (codec.encode decoded).depth ≤ depth →
    codec.decode (codec.encode decoded).sortKeys = .ok decoded
  passes : ∀ decoded path, sound decoded → (codec.encode decoded).depth ≤ depth →
    check nodeShape (codec.encode decoded).sortKeys rule path = []

/-- Agreement for another description of the same typed values. -/
theorem Agrees.congr {α : Type} {depth : Nat} {rule : Rule} {codec : Codec α}
    {sound other : α → Prop} (agrees : Agrees depth rule codec sound)
    (same : ∀ decoded, sound decoded ↔ other decoded) : Agrees depth rule codec other := by
  have equal : sound = other := funext fun decoded => propext (same decoded)
  exact equal ▸ agrees

/-! ### The checker, rule by rule -/

section Checker

variable (shape : Bool → List (String × Need × Rule)) (value : Value) (path : String)

theorem check_number (bound : Bound) :
    check shape value (.number bound) path = checkNumber bound value path := by
  cases value <;> rfl

theorem check_oneOf (names : List String) :
    check shape value (.oneOf names) path = checkName names value path := by
  cases value <;> rfl

theorem check_integer (least : Nat) :
    check shape value (.integer least) path = checkInteger least value path := by
  cases value <;> rfl

theorem check_instant : check shape value .instant path = checkInstant value path := by
  cases value <;> rfl

end Checker

theorem wrongKind_ne_nil (value : Value) (path message : String) :
    wrongKind value path message ≠ [] :=
  List.cons_ne_nil _ _

theorem check_null_ne_nil (rule : Rule) (path : String) :
    check nodeShape .null rule path ≠ [] := by
  cases rule <;> exact List.cons_ne_nil _ _

/-! ### Scalars -/

section Scalars

variable {depth : Nat}

theorem agrees_text : Agrees depth .text Codec.string fun _ => True where
  decodes := by
    intro value path _ _ passed
    cases value with
    | string text => exact ⟨text, rfl, trivial, Nat.zero_le _⟩
    | _ => exact absurd passed (wrongKind_ne_nil _ _ _)
  restores := fun _ _ _ => rfl
  passes := fun _ _ _ _ => rfl

theorem agrees_flag : Agrees depth .flag Codec.boolean fun _ => True where
  decodes := by
    intro value path _ _ passed
    cases value with
    | bool value => exact ⟨value, rfl, trivial, Nat.zero_le _⟩
    | _ => exact absurd passed (wrongKind_ne_nil _ _ _)
  restores := fun _ _ _ => rfl
  passes := fun _ _ _ _ => rfl

/-- A number that passes its bound is decoded to one within the bound: an
integer is rounded before it is compared. -/
theorem agrees_number (bound : Bound) :
    Agrees depth (.number bound) Codec.double fun number => bound.admits number = true where
  decodes := by
    intro value path _ _ passed
    rw [check_number] at passed
    cases value with
    | integer number =>
        by_cases admitted : bound.admits number.toBinary64 = true
        · exact ⟨number.toBinary64, rfl, admitted, Nat.zero_le _⟩
        · simp [checkNumber, admitted] at passed
    | float number =>
        by_cases admitted : bound.admits number = true
        · exact ⟨number, rfl, admitted, Nat.zero_le _⟩
        · simp [checkNumber, admitted] at passed
    | _ => exact absurd passed (wrongKind_ne_nil _ _ _)
  restores := fun _ _ _ => rfl
  passes := by
    intro number path admitted _
    change (if bound.admits number then [] else _) = _
    rw [if_pos admitted]

/-- A name that is allowed decodes to the constant of that name. -/
theorem agrees_oneOf {α : Type} (name : α → String) (all : List α)
    (found : ∀ constant, all.find? (fun other => name other == name constant) = some constant) :
    Agrees depth (.oneOf (all.map name)) (Codec.choice name all) fun _ => True where
  decodes := by
    intro value path _ _ passed
    rw [check_oneOf] at passed
    cases value with
    | string text =>
        by_cases allowed : (all.map name).contains text = true
        · obtain ⟨constant, -, rfl⟩ :=
            List.mem_map.mp (List.contains_iff_mem.mp allowed)
          refine ⟨constant, ?_, trivial, Nat.zero_le _⟩
          simp only [Codec.choice, found]
        · simp only [checkName, if_neg allowed] at passed
          exact absurd passed (List.cons_ne_nil _ _)
    | _ => exact absurd passed (wrongKind_ne_nil _ _ _)
  restores := by
    intro constant _ _
    simp only [Codec.choice, Value.sortKeys, found]
  passes := by
    intro constant path _ _
    have allowed : (all.map name).contains (name constant) = true :=
      List.contains_iff_mem.mpr
        (List.mem_map_of_mem (List.mem_of_find?_eq_some (found constant)))
    rw [check_oneOf]
    simp only [Codec.choice, Value.sortKeys, checkName, allowed, if_true]

/-- A count within 64 bits. -/
theorem agrees_integer (least : Nat) (label : String) :
    Agrees depth (.integer least) (Codec.natural label) fun count => least ≤ count.toNat where
  decodes := by
    intro value path _ _ passed
    rw [check_integer] at passed
    cases value with
    | integer number =>
        by_cases enough : (least : Int) ≤ number.value
        · have upper := number.upper
          have notNegative : ¬ number.value < 0 := by omega
          have inRange : number.value.toNat < 2 ^ 64 := by
            unfold integerLimit at upper
            omega
          refine ⟨.ofNat number.value.toNat, ?_, ?_, Nat.zero_le _⟩
          · change (if number.value < 0 then _ else _) = _
            rw [if_neg notNegative]
          · rw [UInt64.toNat_ofNat_of_lt' inRange]
            omega
        · simp [checkInteger, enough] at passed
    | _ => exact absurd passed (List.cons_ne_nil _ _)
  restores := by
    intro count _ _
    simp only [Codec.natural, Value.ofCount, Value.sortKeys, decodeNatural]
    rw [if_neg (by omega), Int.toNat_natCast, UInt64.ofNat_toNat]
  passes := by
    intro count path enough _
    change (if (least : Int) ≤ (count.toNat : Int) then [] else _) = _
    rw [if_pos (by omega)]

/-- A count that names a timestamp is small enough to be looked at. -/
theorem le_greatestMillis_of_ofMillis? {millis : Int} {timestamp : Timestamp}
    (named : Timestamp.ofMillis? millis = some timestamp) : millis ≤ greatestMillis := by
  unfold Timestamp.ofMillis? at named
  simp only at named
  split at named
  · exact absurd named (Option.some_ne_none _).symm
  · split at named
    · rename_i second_lt
      unfold secondLimit secondsBefore1970 secondsPerDay at second_lt
      unfold greatestMillis
      omega
    · exact absurd named (Option.some_ne_none _).symm

/-- A timestamp. Its own text is among the texts that name it. -/
theorem agrees_instant : Agrees depth .instant Codec.timestamp fun _ => True where
  decodes := by
    intro value path _ _ passed
    rw [check_instant] at passed
    cases value with
    | string text =>
        cases named : Timestamp.parse? text with
        | some timestamp =>
            refine ⟨timestamp, ?_, trivial, Nat.zero_le _⟩
            simp only [Codec.timestamp, decodeTimestamp, named]
        | none => simp [checkInstant, named] at passed
    | integer number =>
        cases named : Timestamp.ofMillis? number.value with
        | some timestamp =>
            refine ⟨timestamp, ?_, trivial, Nat.zero_le _⟩
            have counted := le_greatestMillis_of_ofMillis? named
            simp only [Codec.timestamp, decodeTimestamp, if_neg (Int.not_lt.mpr counted),
              timestampOfMillis, named]
        | none => simp [checkInstant, named] at passed
    | _ => exact absurd passed (List.cons_ne_nil _ _)
  restores := by
    intro timestamp _ _
    simp only [Codec.timestamp, Value.sortKeys, decodeTimestamp, Timestamp.parse?_text]
  passes := by
    intro timestamp path _ _
    rw [check_instant]
    simp only [Codec.timestamp, Value.sortKeys, checkInstant, Timestamp.parse?_text]
    rfl

theorem agrees_anyObject :
    Agrees depth .anyObject Codec.jsonObject fun members => (Value.object members).Ordered where
  decodes := by
    intro value path ordered shallow passed
    cases value with
    | object members => exact ⟨members, rfl, ordered, shallow⟩
    | _ => exact absurd passed (wrongKind_ne_nil _ _ _)
  restores := by
    intro members ordered _
    change Codec.jsonObject.decode (Value.object members).sortKeys = _
    rw [Value.sortKeys_of_ordered ordered]
    rfl
  passes := by
    intro members path ordered _
    change check nodeShape (Value.object members).sortKeys _ _ = _
    rw [Value.sortKeys_of_ordered ordered]
    rfl

end Scalars

/-! ### Lists, quadruples and maps -/

section Containers

variable {α : Type} {depth : Nat} {rule : Rule} {codec : Codec α} {sound : α → Prop}

theorem Agrees.mapM_decode (agrees : Agrees depth rule codec sound) (items : List Value)
    (path : String) (index : Nat) (ordered : ∀ item ∈ items, item.Ordered)
    (shallow : ∀ item ∈ items, item.depth ≤ depth)
    (passed : checkItems nodeShape items rule path index = []) :
    ∃ decoded, items.mapM codec.decode = .ok decoded ∧ decoded.length = items.length ∧
      ∀ value ∈ decoded, sound value ∧ (codec.encode value).depth ≤ depth := by
  induction items generalizing index with
  | nil => exact ⟨[], rfl, rfl, List.forall_mem_nil _⟩
  | cons item rest inductionHypothesis =>
      rw [checkItems, List.append_eq_nil_iff] at passed
      obtain ⟨orderedItem, orderedRest⟩ := List.forall_mem_cons.mp ordered
      obtain ⟨shallowItem, shallowRest⟩ := List.forall_mem_cons.mp shallow
      obtain ⟨value, decodedItem, soundItem⟩ :=
        agrees.decodes item _ orderedItem shallowItem passed.1
      obtain ⟨values, decodedRest, sameLength, soundRest⟩ :=
        inductionHypothesis (index + 1) orderedRest shallowRest passed.2
      refine ⟨value :: values, ?_, congrArg Nat.succ sameLength,
        List.forall_mem_cons.mpr ⟨soundItem, soundRest⟩⟩
      rw [List.mapM_cons, decodedItem, decodedRest]
      rfl

theorem Agrees.mapM_restores (agrees : Agrees depth rule codec sound) (values : List α)
    (soundAll : ∀ value ∈ values, sound value)
    (shallow : ∀ value ∈ values, (codec.encode value).depth ≤ depth) :
    ((values.map codec.encode).map Value.sortKeys).mapM codec.decode = .ok values := by
  induction values with
  | nil => rfl
  | cons value rest inductionHypothesis =>
      obtain ⟨soundFirst, soundRest⟩ := List.forall_mem_cons.mp soundAll
      obtain ⟨shallowFirst, shallowRest⟩ := List.forall_mem_cons.mp shallow
      rw [List.map_cons, List.map_cons, List.mapM_cons,
        agrees.restores value soundFirst shallowFirst,
        inductionHypothesis soundRest shallowRest]
      rfl

theorem Agrees.checkItems_passes (agrees : Agrees depth rule codec sound) (values : List α)
    (path : String) (index : Nat) (soundAll : ∀ value ∈ values, sound value)
    (shallow : ∀ value ∈ values, (codec.encode value).depth ≤ depth) :
    checkItems nodeShape ((values.map codec.encode).map Value.sortKeys) rule path index =
      [] := by
  induction values generalizing index with
  | nil => rfl
  | cons value rest inductionHypothesis =>
      obtain ⟨soundFirst, soundRest⟩ := List.forall_mem_cons.mp soundAll
      obtain ⟨shallowFirst, shallowRest⟩ := List.forall_mem_cons.mp shallow
      rw [List.map_cons, List.map_cons, checkItems,
        agrees.passes value _ soundFirst shallowFirst,
        inductionHypothesis (index + 1) soundRest shallowRest]
      rfl

theorem agrees_list
    (item : ∀ inner, depth = inner + 1 → Agrees inner rule codec sound) :
    Agrees depth (.list rule) codec.list fun values => ∀ value ∈ values, sound value where
  decodes := by
    intro value path ordered shallow passed
    cases value with
    | array items =>
        obtain ⟨inner, rfl⟩ := Nat.exists_eq_add_of_le'
          (Nat.le_trans (Value.depth_array_pos items) shallow)
        rw [Value.ordered_array] at ordered
        rw [Value.depth_array_le_succ] at shallow
        obtain ⟨decoded, decodes, -, soundAll⟩ :=
          (item inner rfl).mapM_decode items path 0 ordered shallow passed
        refine ⟨decoded, decodes, fun value isMember => (soundAll value isMember).1, ?_⟩
        change (Value.array (decoded.map codec.encode)).depth ≤ inner + 1
        rw [Value.depth_array_le_succ, List.forall_mem_map]
        exact fun value isMember => (soundAll value isMember).2
    | _ => exact absurd passed (wrongKind_ne_nil _ _ _)
  restores := by
    intro values soundAll shallow
    change (Value.array (values.map codec.encode)).depth ≤ depth at shallow
    obtain ⟨inner, rfl⟩ := Nat.exists_eq_add_of_le'
      (Nat.le_trans (Value.depth_array_pos _) shallow)
    rw [Value.depth_array_le_succ, List.forall_mem_map] at shallow
    change codec.list.decode (Value.array (values.map codec.encode)).sortKeys = _
    rw [Value.sortKeys_array]
    exact (item inner rfl).mapM_restores values soundAll shallow
  passes := by
    intro values path soundAll shallow
    change (Value.array (values.map codec.encode)).depth ≤ depth at shallow
    obtain ⟨inner, rfl⟩ := Nat.exists_eq_add_of_le'
      (Nat.le_trans (Value.depth_array_pos _) shallow)
    rw [Value.depth_array_le_succ, List.forall_mem_map] at shallow
    change check nodeShape (Value.array (values.map codec.encode)).sortKeys _ _ = _
    rw [Value.sortKeys_array]
    exact (item inner rfl).checkItems_passes values path 0 soundAll shallow

theorem checkersOf_eq_map (shape : Bool → List (String × Need × Rule))
    (members : List (String × Value)) :
    checkersOf shape members = members.map fun member => (member.1, check shape member.2) := by
  induction members with
  | nil => rfl
  | cons member rest inductionHypothesis =>
      rw [checkersOf, inductionHypothesis, List.map_cons]

theorem Agrees.decodeEntries_decodes (agrees : Agrees depth rule codec sound)
    (members : List (String × Value)) (path : String)
    (ordered : ∀ member ∈ members, member.2.Ordered)
    (shallow : ∀ member ∈ members, member.2.depth ≤ depth)
    (passed : ∀ member ∈ members,
      check nodeShape member.2 rule (memberPath path member.1) = []) :
    ∃ entries, decodeEntries codec.decode members = .ok entries ∧
      entries.map Prod.fst = members.map Prod.fst ∧
      ∀ entry ∈ entries, sound entry.2 ∧ (codec.encode entry.2).depth ≤ depth := by
  induction members with
  | nil => exact ⟨[], rfl, rfl, List.forall_mem_nil _⟩
  | cons member rest inductionHypothesis =>
      obtain ⟨orderedFirst, orderedRest⟩ := List.forall_mem_cons.mp ordered
      obtain ⟨shallowFirst, shallowRest⟩ := List.forall_mem_cons.mp shallow
      obtain ⟨passedFirst, passedRest⟩ := List.forall_mem_cons.mp passed
      obtain ⟨value, decodedFirst, soundFirst⟩ :=
        agrees.decodes member.2 _ orderedFirst shallowFirst passedFirst
      obtain ⟨entries, decodedRest, sameKeys, soundRest⟩ :=
        inductionHypothesis orderedRest shallowRest passedRest
      refine ⟨(member.1, value) :: entries, ?_, congrArg (List.cons member.1) sameKeys,
        List.forall_mem_cons.mpr ⟨soundFirst, soundRest⟩⟩
      rw [decodeEntries, decodedFirst, decodedRest]
      rfl

theorem Agrees.decodeEntries_restores (agrees : Agrees depth rule codec sound)
    (entries : Dict α) (soundAll : ∀ entry ∈ entries, sound entry.2)
    (shallow : ∀ entry ∈ entries, (codec.encode entry.2).depth ≤ depth) :
    decodeEntries codec.decode
        (entries.map fun entry => (entry.1, (codec.encode entry.2).sortKeys)) =
      .ok entries := by
  induction entries with
  | nil => rfl
  | cons entry rest inductionHypothesis =>
      obtain ⟨soundFirst, soundRest⟩ := List.forall_mem_cons.mp soundAll
      obtain ⟨shallowFirst, shallowRest⟩ := List.forall_mem_cons.mp shallow
      rw [List.map_cons, decodeEntries, agrees.restores entry.2 soundFirst shallowFirst,
        inductionHypothesis soundRest shallowRest]
      rfl

/-- An encoded map, its keys in order, holds the encoded entries. -/
theorem sortKeys_encode_dict {codec : Codec α} {entries : Dict α}
    (ascending : Value.Ascending entries) :
    (codec.dict.encode entries).sortKeys =
      .object (entries.map fun entry => (entry.1, (codec.encode entry.2).sortKeys)) := by
  change (Value.object (entries.map fun entry => (entry.1, codec.encode entry.2))).sortKeys = _
  rw [Value.sortKeys_object, List.map_map]
  refine congrArg Value.object (Value.orderMembers_of_ascending (ascending.of_keys ?_))
  rw [List.map_map]
  rfl

theorem agrees_map
    (entry : ∀ inner, depth = inner + 1 → Agrees inner rule codec sound) :
    Agrees depth (.map rule) codec.dict fun entries =>
      Value.Ascending entries ∧ ∀ entry ∈ entries, sound entry.2 where
  decodes := by
    intro value path ordered shallow passed
    cases value with
    | object members =>
        obtain ⟨inner, rfl⟩ := Nat.exists_eq_add_of_le'
          (Nat.le_trans (Value.depth_object_pos members) shallow)
        rw [Value.ordered_object] at ordered
        rw [Value.depth_object_le_succ] at shallow
        have memberPasses : ∀ member ∈ members,
            check nodeShape member.2 rule (memberPath path member.1) = [] := by
          change (checkersOf nodeShape members).flatMap (fun checker =>
            checker.2 rule (memberPath path checker.1)) = [] at passed
          rw [checkersOf_eq_map, List.flatMap_eq_nil_iff, List.forall_mem_map] at passed
          exact passed
        obtain ⟨entries, decodes, sameKeys, soundAll⟩ :=
          (entry inner rfl).decodeEntries_decodes members path ordered.2 shallow memberPasses
        have ascending : Value.Ascending entries := ordered.1.of_keys sameKeys
        refine ⟨entries, ?_, ⟨ascending, fun entry isMember => (soundAll entry isMember).1⟩, ?_⟩
        · change (decodeEntries codec.decode members >>= fun entries =>
            pure (Value.orderMembers entries)) = _
          rw [decodes]
          exact congrArg Except.ok (Value.orderMembers_of_ascending ascending)
        · change (Value.object (entries.map fun entry =>
            (entry.1, codec.encode entry.2))).depth ≤ inner + 1
          rw [Value.depth_object_le_succ, List.forall_mem_map]
          exact fun entry isMember => (soundAll entry isMember).2
    | _ => exact absurd passed (wrongKind_ne_nil _ _ _)
  restores := by
    intro entries soundAll shallow
    change (Value.object (entries.map fun entry =>
      (entry.1, codec.encode entry.2))).depth ≤ depth at shallow
    obtain ⟨inner, rfl⟩ := Nat.exists_eq_add_of_le'
      (Nat.le_trans (Value.depth_object_pos _) shallow)
    rw [Value.depth_object_le_succ, List.forall_mem_map] at shallow
    rw [sortKeys_encode_dict soundAll.1]
    change (decodeEntries codec.decode _ >>= fun entries =>
      pure (Value.orderMembers entries)) = _
    rw [(entry inner rfl).decodeEntries_restores entries soundAll.2 shallow]
    exact congrArg Except.ok (Value.orderMembers_of_ascending soundAll.1)
  passes := by
    intro entries path soundAll shallow
    change (Value.object (entries.map fun entry =>
      (entry.1, codec.encode entry.2))).depth ≤ depth at shallow
    obtain ⟨inner, rfl⟩ := Nat.exists_eq_add_of_le'
      (Nat.le_trans (Value.depth_object_pos _) shallow)
    rw [Value.depth_object_le_succ, List.forall_mem_map] at shallow
    rw [sortKeys_encode_dict soundAll.1]
    change (checkersOf nodeShape _).flatMap (fun checker =>
      checker.2 rule (memberPath path checker.1)) = []
    rw [checkersOf_eq_map, List.flatMap_eq_nil_iff, List.forall_mem_map, List.forall_mem_map]
    exact fun item isMember => (entry inner rfl).passes item.2 _
      (soundAll.2 item isMember) (shallow item isMember)

end Containers

/-- Four numbers, the only quadruples there are. -/
theorem agrees_quad {depth : Nat} :
    Agrees depth .quad Codec.double.quad fun _ => True where
  decodes := by
    intro value path ordered shallow passed
    cases value with
    | array items =>
        obtain ⟨inner, rfl⟩ := Nat.exists_eq_add_of_le'
          (Nat.le_trans (Value.depth_array_pos items) shallow)
        rw [Value.ordered_array] at ordered
        rw [Value.depth_array_le_succ] at shallow
        change (if items.length = 4 then checkItems nodeShape items (.number .any) path 0
          else _) = [] at passed
        split at passed
        · rename_i four
          obtain ⟨decoded, decodes, sameLength, -⟩ :=
            (agrees_number .any).mapM_decode items path 0 ordered shallow passed
          rw [four] at sameLength
          obtain ⟨top, right, bottom, left, rfl⟩ : ∃ top right bottom left,
              decoded = [top, right, bottom, left] := by
            match decoded, sameLength with
            | [top, right, bottom, left], _ => exact ⟨top, right, bottom, left, rfl⟩
          refine ⟨⟨top, right, bottom, left⟩, ?_, trivial, ?_⟩
          · change ((items.take 4).mapM Codec.double.decode >>= _) = _
            rw [List.take_of_length_le (Nat.le_of_eq four), decodes]
            change (if items.length = 4 then _ else _) = _
            rw [if_pos four]
            rfl
          · exact Nat.succ_le_succ (Nat.zero_le _)
        · exact absurd passed (List.cons_ne_nil _ _)
    | _ => exact absurd passed (wrongKind_ne_nil _ _ _)
  restores := fun _ _ _ => rfl
  passes := fun _ _ _ _ => rfl

end Wireframe.Check
