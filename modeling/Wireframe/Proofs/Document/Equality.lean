import Wireframe.Document.Basic
import Wireframe.Patch.Basic
import Wireframe.Proofs.Json.Order
import Wireframe.Proofs.Node.Paths

/-!
Contract: equality of typed values is reflexive.

Numbers are finite, so that each equals itself, and every other equality is made
up of equalities of parts. Equality does not mean sameness: the two zeros are
equal.
-/

namespace Wireframe

open Json Number Codec

instance : ReflBEq Binary64 where
  rfl := by
    intro number
    exact beq_self_eq_true number.position

namespace Json.Value

theorem equalItems_self {items : List Value}
    (each : ∀ item ∈ items, item.equal item = true) : equalItems items items = true := by
  induction items with
  | nil => rfl
  | cons item rest inductionHypothesis =>
      obtain ⟨first, others⟩ := List.forall_mem_cons.mp each
      rw [equalItems, first, inductionHypothesis others]
      rfl

theorem equalMembers_self {members : List (String × Value)}
    (each : ∀ member ∈ members, member.2.equal member.2 = true) :
    equalMembers members members = true := by
  induction members with
  | nil => rfl
  | cons member rest inductionHypothesis =>
      obtain ⟨first, others⟩ := List.forall_mem_cons.mp each
      rw [equalMembers, first, inductionHypothesis others, beq_self_eq_true]
      rfl

theorem equal_self (value : Value) : value.equal value = true := by
  induction value using Value.induction with
  | null => rfl
  | bool value => exact beq_self_eq_true value
  | integer number => exact beq_self_eq_true number.value
  | float number => exact beq_self_eq_true number
  | string text => exact beq_self_eq_true text
  | array items inductionHypothesis => exact equalItems_self inductionHypothesis
  | object members inductionHypothesis => exact equalMembers_self inductionHypothesis

end Json.Value

instance : ReflBEq Value where
  rfl := by
    intro value
    exact Value.equal_self value

deriving instance ReflBEq for Quad

deriving instance ReflBEq for Constraints, Layout, Border, Typography, Style, State, Action,
  Event, Media, Attributes

theorem Node.equalAll_self {nodes : List Node}
    (each : ∀ node ∈ nodes, node.equal node = true) : Node.equalAll nodes nodes = true := by
  induction nodes with
  | nil => rfl
  | cons node rest inductionHypothesis =>
      obtain ⟨first, others⟩ := List.forall_mem_cons.mp each
      rw [Node.equalAll, first, inductionHypothesis others]
      rfl

theorem Node.equal_self (node : Node) : node.equal node = true := by
  induction node using Node.induction with
  | mk attributes children inductionHypothesis =>
      rw [Node.equal, Node.equalAll_self inductionHypothesis, beq_self_eq_true]
      rfl

instance : ReflBEq Node where
  rfl := by
    intro node
    exact Node.equal_self node

deriving instance ReflBEq for TypeTokens, Tokens, Theme, Asset, DataSource, Metadata

instance : ReflBEq Document where
  rfl := by
    intro document
    change (_ && _) = true
    simp only [BEq.rfl, decide_true, Bool.and_self]

end Wireframe
