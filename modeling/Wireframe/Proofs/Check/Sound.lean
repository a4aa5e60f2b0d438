import Wireframe.Document.Basic
import Wireframe.Patch.Basic
import Wireframe.Check.Rule
import Wireframe.Proofs.Json.Order

/-!
Contract: the typed values that checked data stands for.

Owns:
- `Sound` for every part of a document, for nodes, patches and documents: numbers
  within their bounds, dictionaries in key order, free data with its keys in
  order, and no free datum that is null.

Does not own: that data which passes its rule decodes to sound values, and that
sound values encode to data which passes.
-/

namespace Wireframe

open Json Check

namespace Constraints

/-- Every number stands within its bound. -/
structure Sound (constraints : Constraints) : Prop where
  minWidth : ∀ number ∈ constraints.minWidth, Bound.nonNegative.admits number = true
  maxWidth : ∀ number ∈ constraints.maxWidth, Bound.positive.admits number = true
  minHeight : ∀ number ∈ constraints.minHeight, Bound.nonNegative.admits number = true
  maxHeight : ∀ number ∈ constraints.maxHeight, Bound.positive.admits number = true
  grow : ∀ number ∈ constraints.grow, Bound.unit.admits number = true
  shrink : ∀ number ∈ constraints.shrink, Bound.unit.admits number = true

end Constraints

namespace Layout

/-- A grid has columns and rows. -/
structure Sound (layout : Layout) : Prop where
  columns : ∀ number ∈ layout.columns, Bound.positive.admits number = true
  rows : ∀ number ∈ layout.rows, Bound.positive.admits number = true

end Layout

namespace State

/-- An initial value is not null, since null reads as its absence. -/
structure Sound (state : State) : Prop where
  initialValue : ∀ value ∈ state.initialValue, value ≠ .null ∧ value.Ordered
  bindings : Value.Ascending state.bindings

end State

namespace Action

def Sound (action : Action) : Prop :=
  ∀ members ∈ action.payload, (Value.object members).Ordered

end Action

namespace Event

def Sound (event : Event) : Prop :=
  event.action.Sound

end Event

namespace Attributes

structure Sound (attributes : Attributes) : Prop where
  bindings : Value.Ascending attributes.bindings
  constraints : ∀ constraints ∈ attributes.constraints, constraints.Sound
  layout : attributes.layout.Sound
  state : ∀ state ∈ attributes.state, state.Sound
  events : ∀ event ∈ attributes.events, event.Sound

end Attributes

namespace Node

mutual

/-- All nodes of a tree have sound attributes. -/
def Sound : Node → Prop
  | mk attributes children => attributes.Sound ∧ SoundAll children

def SoundAll : List Node → Prop
  | [] => True
  | node :: rest => node.Sound ∧ SoundAll rest

end

theorem soundAll_iff (nodes : List Node) : SoundAll nodes ↔ ∀ node ∈ nodes, node.Sound := by
  induction nodes with
  | nil => simp [SoundAll]
  | cons node rest inductionHypothesis =>
      rw [SoundAll, inductionHypothesis, List.forall_mem_cons]

theorem sound_mk (attributes : Attributes) (children : List Node) :
    (mk attributes children).Sound ↔
      attributes.Sound ∧ ∀ child ∈ children, child.Sound := by
  rw [Sound, soundAll_iff]

end Node

namespace Payload

/-- What a payload carries is sound. -/
structure Sound (payload : Payload) : Prop where
  bindings : ∀ bindings ∈ payload.bindings, Value.Ascending bindings
  constraints : ∀ constraints ∈ payload.constraints, constraints.Sound
  layout : ∀ layout ∈ payload.layout, layout.Sound
  state : ∀ state ∈ payload.state, state.Sound
  events : ∀ events ∈ payload.events, ∀ event ∈ events, event.Sound
  children : ∀ children ∈ payload.children, ∀ child ∈ children, child.Sound

end Payload

namespace Patch

def Sound (patch : Patch) : Prop :=
  ∀ payload ∈ patch.payload, payload.Sound

end Patch

namespace TypeTokens

structure Sound (tokens : TypeTokens) : Prop where
  fontFamilies : Value.Ascending tokens.fontFamilies
  fontSizes : Value.Ascending tokens.fontSizes

end TypeTokens

namespace Tokens

structure Sound (tokens : Tokens) : Prop where
  colors : Value.Ascending tokens.colors
  radii : Value.Ascending tokens.radii
  spacing : Value.Ascending tokens.spacing
  typography : tokens.typography.Sound

end Tokens

namespace Theme

def Sound (theme : Theme) : Prop :=
  theme.tokens.Sound

end Theme

namespace Asset

def Sound (asset : Asset) : Prop :=
  ∀ members ∈ asset.metadata, (Value.object members).Ordered

end Asset

namespace DataSource

structure Sound (source : DataSource) : Prop where
  config : (Value.object source.config).Ordered
  sample : ∀ value ∈ source.sample, value ≠ .null ∧ value.Ordered

end DataSource

namespace Metadata

/-- Revisions are counted from one. -/
def Sound (metadata : Metadata) : Prop :=
  1 ≤ metadata.revision.toNat

end Metadata

namespace Document

structure Sound (document : Document) : Prop where
  layoutTree : document.layoutTree.Sound
  assets : ∀ asset ∈ document.assets, asset.Sound
  dataSources : ∀ source ∈ document.dataSources, source.Sound
  theme : document.theme.Sound
  metadata : document.metadata.Sound

end Document

end Wireframe
