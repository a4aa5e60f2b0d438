import Wireframe.Proofs.Codec.Members

/-!
Contract: the objects of the format, with the members that each of them knows.

Owns:
- `Struct` and `Slot`, the schema as a table;
- `Slot.strip`, the value without the members that its objects do not know, and
  what look-ups find of it;
- `Reads`, a decoder that makes the same of a value so stripped, and the records
  among these.

Does not own: the rules of the checker, or which codec reads which object.
-/

namespace Wireframe.Schema

open Json Codec

/-- The objects whose members have fixed names. -/
inductive Struct where
  | document
  | node
  | patch
  | media
  | constraints
  | layout
  | style
  | border
  | typography
  | state
  | event
  | action
  | theme
  | tokens
  | typeTokens
  | asset
  | dataSource
  | metadata
deriving DecidableEq

/-- What is expected at a place: one of these objects, a list of them, or anything
else, maps with free keys included. -/
inductive Slot where
  | data
  | one (struct : Struct)
  | many (struct : Struct)
deriving DecidableEq

namespace Struct

def plain (names : List String) : List (String × Slot) :=
  names.map fun name => (name, .data)

/-- The members that an object knows. The payload of a patch is a node, too. -/
def members : Struct → List (String × Slot)
  | .document =>
      plain ["id", "version", "createdAt", "locale", "title", "description"] ++
        [("layoutTree", .one .node), ("assets", .many .asset),
          ("dataSources", .many .dataSource), ("theme", .one .theme),
          ("metadata", .one .metadata)]
  | .node =>
      plain ["id", "type", "name", "role", "text", "placeholder", "bindings"] ++
        [("media", .one .media), ("constraints", .one .constraints), ("layout", .one .layout),
          ("style", .one .style), ("state", .one .state), ("events", .many .event),
          ("children", .many .node)]
  | .patch => plain ["targetId", "op", "position"] ++ [("payload", .one .node)]
  | .media => plain ["uri", "url", "description"]
  | .constraints =>
      plain ["minWidth", "maxWidth", "minHeight", "maxHeight", "horizontalAlign",
        "verticalAlign", "grow", "shrink", "order"]
  | .layout =>
      plain ["position", "x", "y", "width", "height", "gap", "padding", "margin", "columns",
        "rows", "direction", "wrap"]
  | .style =>
      plain ["variant", "emphasis", "tone", "background", "foreground", "shadow"] ++
        [("border", .one .border), ("typography", .one .typography)]
  | .border => plain ["color", "radius", "width", "style"]
  | .typography =>
      plain ["fontFamily", "fontSize", "fontWeight", "letterSpacing", "lineHeight", "textAlign"]
  | .state => plain ["name", "initialValue", "bindings"]
  | .event => plain ["id", "trigger", "description"] ++ [("action", .one .action)]
  | .action => plain ["type", "payload"]
  | .theme => plain ["id", "name"] ++ [("tokens", .one .tokens)]
  | .tokens => plain ["colors", "radii", "spacing"] ++ [("typography", .one .typeTokens)]
  | .typeTokens => plain ["fontFamilies", "fontSizes"]
  | .asset => plain ["id", "kind", "uri", "metadata"]
  | .dataSource => plain ["id", "name", "type", "config", "sample"]
  | .metadata => plain ["source", "author", "tags", "revision"]

/-- What is expected under a key, if the key is known. -/
def slot? (struct : Struct) (key : String) : Option Slot :=
  struct.members.lookup key

end Struct

/-! ### Values without unknown members -/

mutual

/-- The value without the members that its objects do not know. -/
def strip : Slot → Value → Value
  | .one struct, .object members => .object (stripMembers struct members)
  | .many struct, .array items => .array (stripItems struct items)
  | _, value => value

def stripMembers (struct : Struct) : List (String × Value) → List (String × Value)
  | [] => []
  | (key, value) :: rest =>
      match struct.slot? key with
      | some slot => (key, strip slot value) :: stripMembers struct rest
      | none => stripMembers struct rest

def stripItems (struct : Struct) : List Value → List Value
  | [] => []
  | item :: rest => strip (.one struct) item :: stripItems struct rest

end

/-- Values that differ at most in members that their objects do not know. -/
def Alike (slot : Slot) (value other : Value) : Prop :=
  strip slot value = strip slot other

section Strip

variable {struct : Struct} {slot : Slot} {members : List (String × Value)}

@[simp] theorem strip_data (value : Value) : strip .data value = value := by
  cases value <;> rfl

theorem stripItems_eq_map (struct : Struct) (items : List Value) :
    stripItems struct items = items.map (strip (.one struct)) := by
  induction items with
  | nil => rfl
  | cons item rest inductionHypothesis => rw [stripItems, inductionHypothesis, List.map_cons]

/-- Only null is stripped to null. -/
theorem strip_eq_null {value : Value} (isNull : strip slot value = .null) : value = .null := by
  cases slot <;> cases value <;> first | rfl | cases isNull

/-- A known member is found as it was, itself stripped. -/
theorem lookup_stripMembers {key : String} (known : struct.slot? key = some slot) :
    (stripMembers struct members).lookup key = (members.lookup key).map (strip slot) := by
  induction members with
  | nil => rfl
  | cons member rest inductionHypothesis =>
      cases member with
      | mk name value =>
          rw [stripMembers, Value.lookup_cons_eq_ite]
          by_cases same : key = name
          · subst same
            simp only [known, Value.lookup_cons_eq_ite, if_true, Option.map_some]
          · rw [if_neg same, ← inductionHypothesis]
            cases struct.slot? name with
            | none => rfl
            | some other => exact (Value.lookup_cons_eq_ite ..).trans (if_neg same)

theorem lookup_stripMembers_of_unknown {key : String} (unknown : struct.slot? key = none) :
    (stripMembers struct members).lookup key = none := by
  induction members with
  | nil => rfl
  | cons member rest inductionHypothesis =>
      cases member with
      | mk name value =>
          rw [stripMembers]
          cases known : struct.slot? name with
          | none => exact inductionHypothesis
          | some slot =>
              have different : key ≠ name := by
                rintro rfl
                simp [unknown] at known
              simp only [Value.lookup_cons_eq_ite, if_neg different, inductionHypothesis]

theorem keys_stripMembers_sublist (struct : Struct) (members : List (String × Value)) :
    ((stripMembers struct members).map Prod.fst).Sublist (members.map Prod.fst) := by
  induction members with
  | nil => exact List.Sublist.refl _
  | cons member rest inductionHypothesis =>
      cases member with
      | mk name value =>
          rw [stripMembers]
          cases struct.slot? name with
          | none => exact inductionHypothesis.cons name
          | some slot => exact inductionHypothesis.cons_cons name

theorem ascending_stripMembers (ascending : Value.Ascending members) :
    Value.Ascending (stripMembers struct members) :=
  Value.ascending_iff_keys.mpr
    ((Value.ascending_iff_keys.mp ascending).sublist (keys_stripMembers_sublist struct members))

/-- Objects are alike whose known members are, whatever else they hold. -/
theorem alike_object_iff {others : List (String × Value)} (ascending : Value.Ascending members)
    (ascendingOthers : Value.Ascending others) :
    Alike (.one struct) (.object members) (.object others) ↔
      ∀ key slot, struct.slot? key = some slot →
        (members.lookup key).map (strip slot) = (others.lookup key).map (strip slot) := by
  show Value.object (stripMembers struct members) = .object (stripMembers struct others) ↔ _
  rw [Value.object.injEq]
  constructor
  · intro same key slot known
    rw [← lookup_stripMembers known, same, lookup_stripMembers known]
  · intro same
    apply (ascending_stripMembers ascending).eq_of_lookup (ascending_stripMembers ascendingOthers)
    intro key
    cases known : struct.slot? key with
    | none => rw [lookup_stripMembers_of_unknown known, lookup_stripMembers_of_unknown known]
    | some slot => rw [lookup_stripMembers known, lookup_stripMembers known, same key slot known]

/-- Members that answer to known keys are the ones that did, themselves stripped. -/
theorem filter_stripMembers {answers : String → Bool}
    (known : ∀ key, answers key = true → struct.slot? key = some slot) :
    ((stripMembers struct members).filter fun member => answers member.1).map Prod.snd =
      ((members.filter fun member => answers member.1).map Prod.snd).map (strip slot) := by
  induction members with
  | nil => rfl
  | cons member rest inductionHypothesis =>
      cases member with
      | mk name value =>
          rw [stripMembers]
          by_cases answered : answers name = true
          · simp only [known name answered, List.filter_cons, answered, if_true, List.map_cons,
              inductionHypothesis]
          · cases struct.slot? name <;>
              simp only [List.filter_cons, answered, if_false, inductionHypothesis,
                Bool.false_eq_true]

end Strip

/-! ### Decoders -/

variable {α : Type} {struct : Struct} {slot : Slot}

/-- What is read of a value is read of the stripped value, too. -/
def ReadsAt (slot : Slot) (codec : Codec α) (value : Value) : Prop :=
  ∀ decoded, codec.decode value = .ok decoded → codec.decode (strip slot value) = .ok decoded

def Reads (slot : Slot) (codec : Codec α) : Prop :=
  ∀ value, ReadsAt slot codec value

theorem Reads.eq_of_alike {codec : Codec α} (reads : Reads slot codec) {value other : Value}
    {first second : α} (alike : Alike slot value other)
    (decodes : codec.decode value = .ok first) (decodesOther : codec.decode other = .ok second) :
    first = second := by
  have stripped := reads value first decodes
  rw [alike, reads other second decodesOther] at stripped
  exact (Except.ok.inj stripped).symm

theorem reads_data (codec : Codec α) : Reads .data codec := by
  intro value decoded decodes
  rw [strip_data]
  exact decodes

theorem reads_option {codec : Codec α} (reads : Reads slot codec) :
    Reads slot codec.option := by
  intro value decoded decodes
  by_cases isNull : value = .null
  · subst isNull
    cases slot <;> exact decodes
  · rw [decode_option_of_ne_null isNull] at decodes
    rw [decode_option_of_ne_null fun stripped => isNull (strip_eq_null stripped)]
    rcases exists_of_map_eq_ok decodes with ⟨typed, inner, rfl⟩
    rw [reads value typed inner]
    rfl

theorem readsAt_list {codec : Codec α} {items : List Value}
    (each : ∀ item ∈ items, ReadsAt (.one struct) codec item) :
    ReadsAt (.many struct) (.list codec) (.array items) := by
  intro decoded decodes
  show (stripItems struct items).mapM codec.decode = .ok decoded
  replace decodes : items.mapM codec.decode = .ok decoded := decodes
  rw [stripItems_eq_map]
  induction items generalizing decoded with
  | nil => exact decodes
  | cons item rest inductionHypothesis =>
      rw [List.forall_mem_cons] at each
      rw [List.mapM_cons] at decodes
      rw [List.map_cons, List.mapM_cons]
      cases first : codec.decode item with
      | error error =>
          rw [first] at decodes
          exact absurd decodes nofun
      | ok typed =>
          cases others : rest.mapM codec.decode with
          | error error =>
              rw [first, others] at decodes
              exact absurd decodes nofun
          | ok below =>
              rw [first, others] at decodes
              rw [each.1 typed first, inductionHypothesis each.2 below others]
              exact decodes

theorem reads_list {codec : Codec α} (reads : Reads (.one struct) codec) :
    Reads (.many struct) (.list codec) := by
  intro value
  cases value with
  | array items => exact readsAt_list fun item _ => reads item
  | _ => exact fun _ decodes => decodes

/-! ### Records -/

/-- The keys of a field are known, and what is expected under them is what its codec
reads. -/
def FieldReads (struct : Struct) (slot : Slot) (field : Codec.Field α) : Prop :=
  (∀ key ∈ field.name :: field.aliases, struct.slot? key = some slot) ∧ Reads slot field.codec

/-- All fields of a record belong to an object. -/
inductive FieldsRead (struct : Struct) : {γ : Type} → Fields γ → Prop
  | nil : FieldsRead struct .nil
  | cons {α β : Type} {head : Codec.Field α} {tail : Fields β} (slot : Slot)
      (reads : FieldReads struct slot head) (others : FieldsRead struct tail) :
      FieldsRead struct (.cons head tail)

/-- A member is found among stripped members as it was. -/
theorem find_stripMembers {field : Codec.Field α} {members : List (String × Value)} {value : α}
    (known : ∀ key ∈ field.name :: field.aliases, struct.slot? key = some slot)
    (reads : ∀ member ∈ members, ReadsAt slot field.codec member.2)
    (found : field.find members = .found value) :
    field.find (stripMembers struct members) = .found value := by
  have answers : ∀ key, field.answersTo key = true → struct.slot? key = some slot := by
    intro key answered
    apply known key
    simpa [Field.answersTo] using answered
  rcases Field.answers_of_find_eq_found found with ⟨unanswered, isDefault⟩ | ⟨given, only, decodes⟩
  · apply Field.find_of_unanswered _ isDefault
    rw [filter_stripMembers answers, unanswered, List.map_nil]
  · have isGiven : given ∈ (members.filter fun member => field.answersTo member.1).map Prod.snd := by
      simp [only]
    rcases List.mem_map.mp isGiven with ⟨member, isMember, rfl⟩
    apply Field.find_of_answered _ (reads member (List.mem_filter.mp isMember).1 value decodes)
    rw [filter_stripMembers answers, only, List.map_singleton]

section Records

variable {β γ : Type} {fields : Fields γ}

theorem FieldsRead.find (reads : FieldsRead struct fields) {members : List (String × Value)}
    {values : γ} (found : fields.find members = .found values) :
    fields.find (stripMembers struct members) = .found values := by
  induction reads with
  | nil => exact found
  | cons slot reads others inductionHypothesis =>
      rw [Fields.find, Outcome.pair_eq_found] at found ⊢
      exact ⟨find_stripMembers reads.1 (fun member _ => reads.2 member.2) found.1,
        inductionHypothesis found.2⟩

/-- A record is read from an object that knows its fields. -/
theorem reads_record (reads : FieldsRead struct fields) {label : String} {build : γ → α}
    {split : α → γ} : Reads (.one struct) (record label fields build split) := by
  intro value decoded decodes
  cases value with
  | object members =>
      rcases exists_of_map_eq_ok decodes with ⟨values, found, rfl⟩
      show ((fields.find (stripMembers struct members)).toExcept).map build = _
      rw [reads.find (Outcome.toExcept_eq_ok.mp found)]
      rfl
  | _ => exact decodes

/-- A field that is read from data of its own kind. -/
theorem FieldsRead.data {head : Codec.Field α} {tail : Fields β}
    (known : ∀ key ∈ head.name :: head.aliases, struct.slot? key = some .data)
    (others : FieldsRead struct tail) : FieldsRead struct (.cons head tail) :=
  .cons .data ⟨known, reads_data _⟩ others

/-- A record of which no field is read from an object. -/
theorem fieldsRead_of_data (known : ∀ key ∈ fields.keys, struct.slot? key = some .data) :
    FieldsRead struct fields := by
  induction fields with
  | nil => exact .nil
  | cons head tail inductionHypothesis =>
      rw [Fields.keys, List.forall_mem_append] at known
      exact .data known.1 (inductionHypothesis known.2)

end Records

end Wireframe.Schema
