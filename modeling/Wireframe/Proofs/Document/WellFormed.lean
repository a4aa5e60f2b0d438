import Wireframe.Proofs.Document.Editing
import Wireframe.Proofs.Number.Order

/-!
Contract: which documents validation produces.

Owns:
- `WellFormed`, what the numbers, free data, revision and time of a document have
  to be, with bounds on exact values;
- `MapsOrdered`, how maps are held: by key, each key once;
- both together are `Sound`, and describe the range of validation.

Numbers are finite by their type, so that no part has to say so.
-/

namespace Wireframe

open Json Calendar Check

namespace Node

theorem flattenAll_eq_flatMap (nodes : List Node) : flattenAll nodes = nodes.flatMap flatten := by
  induction nodes with
  | nil => rfl
  | cons node rest inductionHypothesis =>
      rw [flattenAll, inductionHypothesis, List.flatMap_cons]

theorem forall_mem_flatten_mk {property : Node → Prop} (attributes : Attributes)
    (children : List Node) :
    (∀ node ∈ (mk attributes children).flatten, property node) ↔
      property (mk attributes children) ∧
        ∀ child ∈ children, ∀ node ∈ child.flatten, property node := by
  rw [flatten, flattenAll_eq_flatMap, List.forall_mem_cons]
  refine and_congr_right fun _ => ?_
  simp only [List.mem_flatMap, forall_exists_index, and_imp]
  exact ⟨fun each child isChild node isNode => each node child isChild isNode,
    fun each node child isChild isNode => each child isChild node isNode⟩

/-- A tree is sound when the attributes of each of its nodes are. -/
theorem sound_iff (tree : Node) :
    tree.Sound ↔ ∀ node ∈ tree.flatten, node.attributes.Sound := by
  induction tree using Node.induction with
  | mk attributes children inductionHypothesis =>
      rw [sound_mk, forall_mem_flatten_mk]
      exact and_congr_right fun _ => forall₂_congr inductionHypothesis

end Node

/-! ### Well-formed documents -/

/-- Sizes are not negative, greatest sizes positive, and shares between 0 and 1. -/
structure Constraints.WellFormed (constraints : Constraints) : Prop where
  minWidth : ∀ number ∈ constraints.minWidth, 0 ≤ number.value
  maxWidth : ∀ number ∈ constraints.maxWidth, 0 < number.value
  minHeight : ∀ number ∈ constraints.minHeight, 0 ≤ number.value
  maxHeight : ∀ number ∈ constraints.maxHeight, 0 < number.value
  grow : ∀ number ∈ constraints.grow, 0 ≤ number.value ∧ number.value ≤ 1
  shrink : ∀ number ∈ constraints.shrink, 0 ≤ number.value ∧ number.value ≤ 1

structure Attributes.WellFormed (attributes : Attributes) : Prop where
  constraints : ∀ constraints ∈ attributes.constraints, constraints.WellFormed
  columns : ∀ number ∈ attributes.layout.columns, 0 < number.value
  rows : ∀ number ∈ attributes.layout.rows, 0 < number.value
  initialValue : ∀ state ∈ attributes.state, state.initialValue ≠ some .null

structure Document.WellFormed (document : Document) : Prop where
  nodes : ∀ node ∈ document.layoutTree.flatten, node.attributes.WellFormed
  samples : ∀ source ∈ document.dataSources, source.sample ≠ some .null
  revision : 1 ≤ document.metadata.revision.toNat
  createdAt : (∃ text, Timestamp.parse? text = some document.createdAt) ∨
    ∃ millis, Timestamp.ofMillis? millis = some document.createdAt

/-! ### Ordered maps -/

structure Attributes.MapsOrdered (attributes : Attributes) : Prop where
  bindings : Value.Ascending attributes.bindings
  stateBindings : ∀ state ∈ attributes.state, Value.Ascending state.bindings
  initialValue : ∀ state ∈ attributes.state, ∀ value ∈ state.initialValue, value.Ordered
  payloads : ∀ event ∈ attributes.events, ∀ members ∈ event.action.payload,
    (Value.object members).Ordered

/-- Every map of a document, in its free data too, is held in key order. -/
structure Document.MapsOrdered (document : Document) : Prop where
  nodes : ∀ node ∈ document.layoutTree.flatten, node.attributes.MapsOrdered
  assets : ∀ asset ∈ document.assets, ∀ members ∈ asset.metadata, (Value.object members).Ordered
  configs : ∀ source ∈ document.dataSources, (Value.object source.config).Ordered
  samples : ∀ source ∈ document.dataSources, ∀ value ∈ source.sample, value.Ordered
  colors : Value.Ascending document.theme.tokens.colors
  radii : Value.Ascending document.theme.tokens.radii
  spacing : Value.Ascending document.theme.tokens.spacing
  fontFamilies : Value.Ascending document.theme.tokens.typography.fontFamilies
  fontSizes : Value.Ascending document.theme.tokens.typography.fontSizes

/-! ### Soundness in two parts -/

theorem Constraints.sound_iff (constraints : Constraints) :
    constraints.Sound ↔ constraints.WellFormed := by
  constructor
  · rintro ⟨minWidth, maxWidth, minHeight, maxHeight, grow, shrink⟩
    simp only [Bound.admits_nonNegative] at minWidth minHeight
    simp only [Bound.admits_positive] at maxWidth maxHeight
    simp only [Bound.admits_unit] at grow shrink
    exact ⟨minWidth, maxWidth, minHeight, maxHeight, grow, shrink⟩
  · rintro ⟨minWidth, maxWidth, minHeight, maxHeight, grow, shrink⟩
    simp only [← Bound.admits_nonNegative] at minWidth minHeight
    simp only [← Bound.admits_positive] at maxWidth maxHeight
    simp only [← Bound.admits_unit] at grow shrink
    exact ⟨minWidth, maxWidth, minHeight, maxHeight, grow, shrink⟩

/-- A value that may be there and is not null. -/
theorem forall_mem_ne_null {given : Option Value} :
    (∀ value ∈ given, value ≠ .null ∧ value.Ordered) ↔
      given ≠ some .null ∧ ∀ value ∈ given, value.Ordered := by
  cases given with
  | none => simp
  | some value => simp

theorem Attributes.sound_iff (attributes : Attributes) :
    attributes.Sound ↔ attributes.MapsOrdered ∧ attributes.WellFormed := by
  constructor
  · rintro ⟨bindings, constraints, ⟨columns, rows⟩, state, events⟩
    simp only [Bound.admits_positive] at columns rows
    have initialValues := fun state' isState =>
      forall_mem_ne_null.mp (state state' isState).initialValue
    constructor
    · exact ⟨bindings, fun state' isState => (state state' isState).bindings,
        fun state' isState => (initialValues state' isState).2, events⟩
    · exact ⟨fun constraints' isThere => constraints'.sound_iff.mp (constraints _ isThere),
        columns, rows, fun state' isState => (initialValues state' isState).1⟩
  · rintro ⟨⟨bindings, stateBindings, ordered, payloads⟩,
      ⟨constraints, columns, rows, notNull⟩⟩
    simp only [← Bound.admits_positive] at columns rows
    refine ⟨bindings, fun constraints' isThere => ?_, ⟨columns, rows⟩, fun state isState => ?_,
      payloads⟩
    · exact constraints'.sound_iff.mpr (constraints _ isThere)
    · exact ⟨forall_mem_ne_null.mpr ⟨notNull state isState, ordered state isState⟩,
        stateBindings state isState⟩

namespace Document

/-- Every timestamp is read from its own text. -/
theorem createdAt_readable (document : Document) :
    (∃ text, Timestamp.parse? text = some document.createdAt) ∨
      ∃ millis, Timestamp.ofMillis? millis = some document.createdAt :=
  Or.inl ⟨_, document.createdAt.parse?_text⟩

theorem sound_iff (document : Document) :
    document.Sound ↔ document.MapsOrdered ∧ document.WellFormed := by
  constructor
  · rintro ⟨layoutTree, assets, dataSources, theme, metadata⟩
    simp only [Node.sound_iff, Attributes.sound_iff] at layoutTree
    have samples := fun source isSource =>
      forall_mem_ne_null.mp (dataSources source isSource).sample
    constructor
    · exact {
        nodes := fun node isNode => (layoutTree node isNode).1
        assets
        configs := fun source isSource => (dataSources source isSource).config
        samples := fun source isSource => (samples source isSource).2
        colors := theme.colors
        radii := theme.radii
        spacing := theme.spacing
        fontFamilies := theme.typography.fontFamilies
        fontSizes := theme.typography.fontSizes }
    · exact {
        nodes := fun node isNode => (layoutTree node isNode).2
        samples := fun source isSource => (samples source isSource).1
        revision := metadata
        createdAt := document.createdAt_readable }
  · rintro ⟨maps, wellFormed⟩
    exact {
      layoutTree := document.layoutTree.sound_iff.mpr fun node isNode =>
        node.attributes.sound_iff.mpr ⟨maps.nodes node isNode, wellFormed.nodes node isNode⟩
      assets := maps.assets
      dataSources := fun source isSource => ⟨maps.configs source isSource,
        forall_mem_ne_null.mpr
          ⟨wellFormed.samples source isSource, maps.samples source isSource⟩⟩
      theme := ⟨maps.colors, maps.radii, maps.spacing, maps.fontFamilies, maps.fontSizes⟩
      metadata := wellFormed.revision }

/-- The range of validation: the well-formed documents, each of which is what its
own value is accepted as. -/
theorem range_validate (document : Document) :
    ((∃ value, value.Ordered ∧ validate .lenient value = .ok document) ↔
        document.MapsOrdered ∧ document.WellFormed) ∧
      (validate .lenient document.toValue = .ok document ↔
        document.MapsOrdered ∧ document.WellFormed) := by
  have orderedOwn : document.toValue.Ordered := Value.ordered_sortKeys _
  rw [← document.sound_iff]
  refine ⟨⟨?_, ?_⟩, ?_, ?_⟩
  · rintro ⟨value, ordered, accepted⟩
    exact (sound_of_validate ordered accepted).2
  · intro sound
    exact ⟨document.toValue, orderedOwn, sound.validate_toValue⟩
  · exact fun accepted => (sound_of_validate orderedOwn accepted).2
  · exact fun sound => sound.validate_toValue

end Document

end Wireframe
