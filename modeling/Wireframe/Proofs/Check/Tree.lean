import Wireframe.Proofs.Check.Parts

/-!
Contract: agreement of nodes, patches and documents.

Owns:
- the reading of a node's object as that of a record with the children last;
- the agreement of nodes by induction on their levels, and of payloads, patches
  and documents, which contain nodes.

A level of the tree takes two levels of data, the node and the list of its
children. What is written of a node, defaults included, takes no more: this is
why depths are even for nodes and odd for documents.
-/

namespace Wireframe

open Json Codec Check

namespace Check

/-- The rule of a node checks the same as the object of its members. -/
theorem check_node (isPartial : Bool) (value : Value) (path : String) :
    check nodeShape value (.node isPartial) path =
      check nodeShape value (.object (nodeShape isPartial)) path := by
  cases value <;> rfl

theorem Agrees.of_object {α : Type} {depth : Nat} {isPartial : Bool} {codec : Codec α}
    {sound : α → Prop} (agrees : Agrees depth (.object (nodeShape isPartial)) codec sound) :
    Agrees depth (.node isPartial) codec sound where
  decodes := by
    intro value path ordered shallow passed
    rw [check_node] at passed
    exact agrees.decodes value path ordered shallow passed
  restores := agrees.restores
  passes := by
    intro decoded path soundHere shallow
    rw [check_node]
    exact agrees.passes decoded path soundHere shallow

end Check

/-! ### A node as a record -/

namespace Node

/-- All members of a node, in the order in which they are written. -/
def fields : Fields (Attributes.MembersThen (List Node × Unit)) :=
  Attributes.fieldsThen (.cons (.defaulting "children" (.list codec) []) .nil)

def toMembers : Node → Attributes.MembersThen (List Node × Unit)
  | mk attributes children =>
    (attributes.id, attributes.kind, attributes.name, attributes.role, attributes.text,
      attributes.placeholder, attributes.media, attributes.bindings, attributes.constraints,
      attributes.layout, attributes.style, attributes.state, attributes.events, children, ())

theorem encodeAll_eq_map (nodes : List Node) : encodeAll nodes = nodes.map encode := by
  induction nodes with
  | nil => rfl
  | cons node rest inductionHypothesis => rw [encodeAll, inductionHypothesis, List.map_cons]

theorem encode_eq (node : Node) : codec.encode node = .object (fields.encode node.toMembers) := by
  obtain ⟨attributes, children⟩ := node
  change encode (mk attributes children) = _
  rw [encode, encodeAll_eq_map]
  simp only [Attributes.fields, Attributes.fieldsThen, Attributes.split, fields, toMembers,
    Fields.encode, List.append_assoc, List.append_nil]
  rfl

theorem decodeAll_eq_mapM (items : List Value) : decodeAll items = items.mapM decode := by
  induction items with
  | nil => rfl
  | cons item rest inductionHypothesis =>
      rw [decodeAll, inductionHypothesis, List.mapM_cons]

theorem decodeChildren_eq (value : Value) :
    decodeChildren value = (Codec.list codec).decode value := by
  cases value with
  | array items => exact decodeAll_eq_mapM items
  | _ => rfl

theorem childrenPlace?_eq_none_iff {members : List (String × Value)} (place : Nat) :
    childrenPlace? place members = none ↔
      members.filter (fun member => member.1 == "children") = [] := by
  induction members generalizing place with
  | nil => simp [childrenPlace?]
  | cons member rest inductionHypothesis =>
      rw [childrenPlace?]
      by_cases same : member.1 = "children"
      · simp [same]
      · rw [if_neg same, List.filter_cons_of_neg (by simpa using same), inductionHypothesis]

/-- The children are found where they are not given, and there are none, or where they
are given once. -/
theorem findChildren_eq_found {members : List (String × Value)} {children : List Node}
    (place : Nat) : findChildren place members = .found children ↔
      ((members.filter fun member => member.1 == "children").map Prod.snd = [] ∧ children = []) ∨
        ∃ given, (members.filter fun member => member.1 == "children").map Prod.snd = [given] ∧
          decodeChildren given = .ok children := by
  induction members generalizing place with
  | nil => simp [findChildren, eq_comm]
  | cons member rest inductionHypothesis =>
      rw [findChildren]
      by_cases same : member.1 = "children"
      · rw [if_pos same, List.filter_cons_of_pos (by simpa using same), List.map_cons]
        cases decodes : decodeChildren member.2 with
        | error error => simp [decodes]
        | ok nodes =>
            cases later : childrenPlace? (place + 1) rest with
            | none =>
                rw [childrenPlace?_eq_none_iff] at later
                simp [later, decodes]
            | some second =>
                have isGiven : rest.filter (fun member => member.1 == "children") ≠ [] := by
                  rw [Ne, ← childrenPlace?_eq_none_iff (place + 1), later]
                  exact Option.some_ne_none second
                simp [List.map_eq_nil_iff, isGiven]
      · rw [if_neg same, List.filter_cons_of_neg (by simpa using same), inductionHypothesis]

/-- The children are found like any other member with a default. -/
theorem findChildren_eq_found_iff {members : List (String × Value)} {children : List Node} :
    findChildren 0 members = .found children ↔
      (Field.defaulting "children" (.list codec) []).find members = .found children := by
  have answers : ∀ key, (Field.defaulting "children" (.list codec) []).answersTo key =
      (key == "children") := by
    simp [Field.answersTo, Field.defaulting]
  have absent : (Field.defaulting "children" (.list codec) []).presence.absent = some children ↔
      children = [] := by
    show some [] = some children ↔ _
    rw [Option.some.injEq, eq_comm]
  rw [findChildren_eq_found, Field.find_eq_found_iff]
  simp only [answers, absent, decodeChildren_eq]
  exact Iff.rfl

/-- An object in which all members of a node are found decodes to that node. -/
theorem decode_of_found {members : List (String × Value)}
    {values : Attributes.MembersThen (List Node × Unit)}
    (found : fields.find members = .found values) :
    codec.decode (.object members) = .ok (ofMembers values) := by
  obtain ⟨id, kind, name, role, text, placeholder, media, bindings, constraints, layout,
    style, state, events, children, ⟨⟩⟩ := values
  simp only [fields, Attributes.fieldsThen, Fields.find, Outcome.pair_eq_found] at found
  obtain ⟨foundId, foundKind, foundName, foundRole, foundText, foundPlaceholder, foundMedia,
    foundBindings, foundConstraints, foundLayout, foundStyle, foundState, foundEvents,
    foundChildren, -⟩ := found
  have foundAttributes : Attributes.fields.find members =
      .found (id, kind, name, role, text, placeholder, media, bindings, constraints, layout,
        style, state, events, ()) := by
    simp only [Attributes.fields, Attributes.fieldsThen, Fields.find, Outcome.pair_eq_found]
    exact ⟨foundId, foundKind, foundName, foundRole, foundText, foundPlaceholder, foundMedia,
      foundBindings, foundConstraints, foundLayout, foundStyle, foundState, foundEvents,
      trivial⟩
  change decode (.object members) = _
  rw [decode, foundAttributes, findChildren_eq_found_iff.mpr foundChildren]
  rfl

/-- And an object that decodes to a node is one in which all its members are found. -/
theorem exists_found_of_decode {members : List (String × Value)} {node : Node}
    (decodes : codec.decode (.object members) = .ok node) :
    ∃ values, fields.find members = .found values ∧ ofMembers values = node := by
  change decode (.object members) = .ok node at decodes
  rw [decode] at decodes
  obtain ⟨⟨attributes, children⟩, found, rfl⟩ := exists_of_map_eq_ok decodes
  rw [Outcome.toExcept_eq_ok, Outcome.pair_eq_found, findChildren_eq_found_iff] at found
  obtain ⟨foundAttributes, foundChildren⟩ := found
  obtain ⟨id, kind, name, role, text, placeholder, media, bindings, constraints, layout, style,
    state, events, ⟨⟩⟩ := attributes
  simp only [Attributes.fields, Attributes.fieldsThen, Fields.find, Outcome.pair_eq_found]
    at foundAttributes
  obtain ⟨foundId, foundKind, foundName, foundRole, foundText, foundPlaceholder, foundMedia,
    foundBindings, foundConstraints, foundLayout, foundStyle, foundState, foundEvents, -⟩ :=
    foundAttributes
  refine ⟨(id, kind, name, role, text, placeholder, media, bindings, constraints, layout, style,
    state, events, children, ()), ?_, rfl⟩
  simp only [fields, Attributes.fieldsThen, Fields.find, Outcome.pair_eq_found]
  exact ⟨foundId, foundKind, foundName, foundRole, foundText, foundPlaceholder, foundMedia,
    foundBindings, foundConstraints, foundLayout, foundStyle, foundState, foundEvents,
    foundChildren, trivial⟩

theorem decode_of_record {members : List (String × Value)} {node : Node}
    (decodes : (record label fields ofMembers toMembers).decode (.object members) = .ok node) :
    codec.decode (.object members) = .ok node := by
  obtain ⟨values, found, rfl⟩ := exists_of_map_eq_ok decodes
  exact decode_of_found (Outcome.toExcept_eq_ok.mp found)

/-- A node agrees with its rule when the record of its members does. -/
theorem agrees_of_record {depth : Nat} {sound : Node → Prop}
    (agrees : Agrees depth (.object (nodeShape false))
      (record label fields ofMembers toMembers) sound) :
    Agrees depth (.node false) codec sound := by
  apply Agrees.of_object
  refine ⟨?_, ?_, ?_⟩
  · intro value path ordered shallow passed
    cases value with
    | object members =>
        obtain ⟨node, decodes, soundHere, within⟩ :=
          agrees.decodes (.object members) path ordered shallow passed
        refine ⟨node, decode_of_record decodes, soundHere, ?_⟩
        rw [encode_eq]
        exact within
    | _ => exact absurd passed (wrongKind_ne_nil _ _ _)
  · intro node soundHere shallow
    rw [encode_eq] at shallow ⊢
    have restores := agrees.restores node soundHere shallow
    rw [Value.sortKeys_object]
    exact decode_of_record ((Value.sortKeys_object _) ▸ restores)
  · intro node path soundHere shallow
    rw [encode_eq] at shallow ⊢
    exact agrees.passes node path soundHere shallow

/-- A node agrees when the list of its children does and leaves room for what is
written by default. -/
theorem agrees_of_children {depth : Nat}
    (children : ∀ inner, depth = inner + 1 → 1 ≤ inner ∧
      Agrees inner (.list (.node false)) (.list codec) fun nodes => ∀ node ∈ nodes, node.Sound) :
    Agrees depth (.node false) codec Sound := by
  apply agrees_of_record
  apply Agrees.congr
  · apply agrees_record label (by decide) (by decide) (by decide) (fun _ => rfl)
      (fun ⟨_, _⟩ => rfl)
    intro inner outer
    obtain ⟨deep, childrenAgree⟩ := children inner outer
    exact .cons (fieldAgrees_needed agrees_text rfl) <|
      .cons (fieldAgrees_needed Kind.agrees rfl) <|
      .cons (fieldAgrees_optional agrees_text rfl) <|
      .cons (fieldAgrees_optional agrees_text rfl) <|
      .cons (fieldAgrees_optional agrees_text rfl) <|
      .cons (fieldAgrees_optional agrees_text rfl) <|
      .cons (fieldAgrees_optional Media.agrees rfl) <|
      .cons (fieldAgrees_unlessEmpty agrees_texts rfl List.Pairwise.nil) <|
      .cons (fieldAgrees_optional Constraints.agrees rfl) <|
      .cons (fieldAgrees_defaulting Layout.agrees rfl ⟨nofun, nofun⟩ deep) <|
      .cons (fieldAgrees_defaulting Style.agrees rfl trivial deep) <|
      .cons (fieldAgrees_optional State.agrees rfl) <|
      .cons (fieldAgrees_defaulting (agrees_list fun _ _ => Event.agrees) rfl
        (List.forall_mem_nil _) deep) <|
      .cons (fieldAgrees_defaulting childrenAgree rfl (List.forall_mem_nil _) deep) .nil
  · intro node
    obtain ⟨attributes, children⟩ := node
    rw [sound_mk]
    constructor
    · rintro ⟨-, -, -, -, -, -, -, bindings, constraints, layout, -, state, events,
        children, -⟩
      exact ⟨⟨bindings, constraints, layout, state, events⟩, children⟩
    · rintro ⟨⟨bindings, constraints, layout, state, events⟩, children⟩
      exact ⟨trivial, trivial, fun _ _ => trivial, fun _ _ => trivial, fun _ _ => trivial,
        fun _ _ => trivial, fun _ _ => trivial, bindings, constraints, layout, trivial, state,
        events, children, trivial⟩

/-- A node and its rule agree on data of any number of levels. -/
theorem agrees (levels : Nat) : Agrees (2 * levels) (.node false) codec Sound := by
  induction levels with
  | zero =>
      apply agrees_of_children
      intro inner outer
      omega
  | succ levels inductionHypothesis =>
      apply agrees_of_children
      intro inner outer
      refine ⟨by omega, agrees_list ?_⟩
      intro below level
      obtain rfl : below = 2 * levels := by omega
      exact inductionHypothesis

end Node

/-! ### Patches -/

/-- A payload is a node of which every member may be absent. -/
theorem Payload.agrees (levels : Nat) :
    Agrees (2 * levels) (.object (nodeShape true)) Payload.codec Payload.Sound := by
  apply Agrees.congr
  · apply agrees_record "NodePatch" (by decide) (by decide) (by decide) (fun _ => rfl)
      (fun _ => rfl)
    intro inner outer
    have children : Agrees inner (.list (.node false)) (.list Node.codec)
        fun nodes => ∀ node ∈ nodes, node.Sound := by
      apply agrees_list
      intro below level
      obtain rfl : below = 2 * (levels - 1) := by omega
      exact Node.agrees (levels - 1)
    exact .cons (fieldAgrees_optional agrees_text rfl) <|
      .cons (fieldAgrees_optional Kind.agrees rfl) <|
      .cons (fieldAgrees_optional agrees_text rfl) <|
      .cons (fieldAgrees_optional agrees_text rfl) <|
      .cons (fieldAgrees_optional agrees_text rfl) <|
      .cons (fieldAgrees_optional agrees_text rfl) <|
      .cons (fieldAgrees_optional Media.agrees rfl) <|
      .cons (fieldAgrees_optional agrees_texts rfl) <|
      .cons (fieldAgrees_optional Constraints.agrees rfl) <|
      .cons (fieldAgrees_optional Layout.agrees rfl) <|
      .cons (fieldAgrees_optional Style.agrees rfl) <|
      .cons (fieldAgrees_optional State.agrees rfl) <|
      .cons (fieldAgrees_optional (agrees_list fun _ _ => Event.agrees) rfl) <|
      .cons (fieldAgrees_optional children rfl) .nil
  · intro payload
    constructor
    · rintro ⟨-, -, -, -, -, -, -, bindings, constraints, layout, -, state, events,
        children, -⟩
      exact ⟨bindings, constraints, layout, state, events, children⟩
    · rintro ⟨bindings, constraints, layout, state, events, children⟩
      exact ⟨fun _ _ => trivial, fun _ _ => trivial, fun _ _ => trivial, fun _ _ => trivial,
        fun _ _ => trivial, fun _ _ => trivial, fun _ _ => trivial, bindings, constraints,
        layout, fun _ _ => trivial, state, events, children, trivial⟩

theorem Patch.agrees (levels : Nat) :
    Agrees (2 * levels + 1) patchRule Patch.codec Patch.Sound := by
  apply Agrees.congr
  · apply agrees_record "Patch" (by decide) (by decide) (by decide) (fun _ => rfl)
      (fun _ => rfl)
    intro inner outer
    obtain rfl : inner = 2 * levels := by omega
    exact .cons (fieldAgrees_needed agrees_text rfl) <|
      .cons (fieldAgrees_needed Operation.agrees rfl) <|
      .cons (fieldAgrees_optional (Payload.agrees levels).of_object rfl) <|
      .cons (fieldAgrees_optional (agrees_integer 0 "usize") rfl) .nil
  · intro patch
    constructor
    · rintro ⟨-, -, payload, -⟩
      exact payload
    · intro payload
      exact ⟨trivial, trivial, payload, fun _ _ => Nat.zero_le _, trivial⟩

/-! ### Documents -/

theorem Theme.sound_baseline : Theme.baseline.Sound := by
  refine ⟨?_, ?_, ?_, ?_, ?_⟩
  all_goals
    unfold Value.Ascending
    decide

/-- Two levels of the tree already leave room for the theme of a document. -/
theorem Document.agrees {levels : Nat} (room : 2 ≤ levels) :
    Agrees (2 * levels + 1) documentRule Document.codec Document.Sound := by
  apply Agrees.congr
  · apply agrees_record "UiIr" (by decide) (by decide) (by decide) (fun _ => rfl)
      (fun _ => rfl)
    intro inner outer
    obtain rfl : inner = 2 * levels := by omega
    have deep : 4 ≤ 2 * levels := by omega
    exact .cons (fieldAgrees_needed agrees_text rfl) <|
      .cons (fieldAgrees_defaulting agrees_text rfl trivial (Nat.zero_le _)) <|
      .cons (fieldAgrees_defaulting agrees_instant rfl trivial (Nat.zero_le _)) <|
      .cons (fieldAgrees_defaulting agrees_text rfl trivial (Nat.zero_le _)) <|
      .cons (fieldAgrees_defaulting agrees_text rfl trivial (Nat.zero_le _)) <|
      .cons (fieldAgrees_optional agrees_text rfl) <|
      .cons (fieldAgrees_needed (Node.agrees levels) rfl) <|
      .cons (fieldAgrees_defaulting (agrees_list fun _ _ => Asset.agrees) rfl
        (List.forall_mem_nil _) (Nat.le_trans (by decide) deep)) <|
      .cons (fieldAgrees_defaulting (agrees_list fun _ _ => DataSource.agrees) rfl
        (List.forall_mem_nil _) (Nat.le_trans (by decide) deep)) <|
      .cons (fieldAgrees_defaulting (Theme.agrees deep) rfl Theme.sound_baseline
        (Nat.le_trans (by decide) deep)) <|
      .cons (fieldAgrees_defaulting (Metadata.agrees (by omega)) rfl (Nat.le_refl 1)
        (Nat.le_trans (by decide) deep)) .nil
  · intro document
    constructor
    · rintro ⟨-, -, -, -, -, -, layoutTree, assets, dataSources, theme, metadata, -⟩
      exact ⟨layoutTree, assets, dataSources, theme, metadata⟩
    · rintro ⟨layoutTree, assets, dataSources, theme, metadata⟩
      exact ⟨trivial, trivial, trivial, trivial, trivial, fun _ _ => trivial, layoutTree,
        assets, dataSources, theme, metadata, trivial⟩

end Wireframe
