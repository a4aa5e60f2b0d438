import Wireframe.Node.Kind
import Wireframe.Node.Layout
import Wireframe.Node.Style
import Wireframe.Node.Event

/-!
Contract: the component tree.

Owns:
- `Attributes`, all of a node but its children, and `Node`, the tree;
- equality of trees, in which numbers are compared numerically;
- the nodes in pre-order, their number, and the look-up by id in two forms:
  the node itself and its index path.

Several nodes may bear one id; look-ups take the first in pre-order.
-/

namespace Wireframe

/-- All of a node but its children. -/
structure Attributes where
  id : String
  kind : Kind
  name : Option String := none
  role : Option String := none
  text : Option String := none
  placeholder : Option String := none
  media : Option Media := none
  bindings : Codec.Dict String := []
  constraints : Option Constraints := none
  layout : Layout := {}
  style : Style := {}
  state : Option State := none
  events : List Event := []
deriving BEq

/-- A node of the component tree, with the trees below it. -/
inductive Node where
  | mk (attributes : Attributes) (children : List Node)

namespace Node

def attributes : Node → Attributes
  | mk attributes _ => attributes

/-- The trees below the root, in order. -/
def children : Node → List Node
  | mk _ children => children

def id (node : Node) : String := node.attributes.id

def kind (node : Node) : Kind := node.attributes.kind

@[simp] theorem attributes_mk (attributes : Attributes) (children : List Node) :
    (mk attributes children).attributes = attributes := rfl

@[simp] theorem children_mk (attributes : Attributes) (children : List Node) :
    (mk attributes children).children = children := rfl

mutual

def equal : Node → Node → Bool
  | mk left lefts, mk right rights => left == right && equalAll lefts rights

def equalAll : List Node → List Node → Bool
  | [], [] => true
  | left :: lefts, right :: rights => equal left right && equalAll lefts rights
  | _, _ => false

end

instance : BEq Node := ⟨equal⟩

mutual

/-- The nodes in pre-order. -/
def flatten : Node → List Node
  | mk attributes children => mk attributes children :: flattenAll children

def flattenAll : List Node → List Node
  | [] => []
  | node :: rest => flatten node ++ flattenAll rest

end

mutual

def count : Node → Nat
  | mk _ children => 1 + countAll children

def countAll : List Node → Nat
  | [] => 0
  | node :: rest => count node + countAll rest

end

mutual

/-- The first node in pre-order with an id. -/
def find? (id : String) : Node → Option Node
  | mk attributes children =>
      if attributes.id = id then some (mk attributes children)
      else findIn? id children

def findIn? (id : String) : List Node → Option Node
  | [] => none
  | node :: rest =>
      match find? id node with
      | some found => some found
      | none => findIn? id rest

end

mutual

/-- The child indexes that lead to the first node in pre-order with an id. -/
def locate? (id : String) : Node → Option (List Nat)
  | mk attributes children =>
      if attributes.id = id then some [] else locateIn? id 0 children

/-- The same among trees of which the first has a given index. -/
def locateIn? (id : String) (index : Nat) : List Node → Option (List Nat)
  | [] => none
  | node :: rest =>
      match locate? id node with
      | some path => some (index :: path)
      | none => locateIn? id (index + 1) rest

end

def at? : Node → List Nat → Option Node
  | node, [] => some node
  | node, index :: path =>
      match node.children[index]? with
      | some child => at? child path
      | none => none

end Node

end Wireframe
