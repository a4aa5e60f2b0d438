import Wireframe.Markup.Lowering

/-!
Contract: the markup of a component tree.

Owns:
- `Table`, which rule is used for which kind;
- the empty and the standard table;
- `Table.render`, the text of a tree's markup.
-/

namespace Wireframe.Markup

/-- The rules that are registered for kinds. -/
structure Table where
  rule? : Kind → Option Lowering

namespace Table

def empty : Table := ⟨fun _ => none⟩

/-- The rule of each kind; tables, modals and charts have none. -/
def standard : Table where
  rule?
    | .page => some .page
    | .hero => some .hero
    | .sectioning => some .sectioning
    | .stack => some .stack
    | .grid => some .grid
    | .text => some .text
    | .button => some .button
    | .input => some .input
    | .image => some .image
    | .card => some .card
    | .list => some .list
    | .listItem => some .listItem
    | .form => some .form
    | .badge => some .badge
    | .nav => some .nav
    | .table | .modal | .chart => none

def register (table : Table) (kind : Kind) (rule : Lowering) : Table where
  rule? other := if other = kind then some rule else table.rule? other

def hasRule (table : Table) (kind : Kind) : Bool :=
  (table.rule? kind).isSome

/-- The rule for a kind, the fallback where none is registered. -/
def ruleFor (table : Table) (kind : Kind) : Lowering :=
  (table.rule? kind).getD .fallback

/-- The kinds without a registered rule. -/
def withoutRule (table : Table) : List Kind :=
  Kind.all.filter fun kind => !table.hasRule kind

mutual

def lower (table : Table) : Node → Element
  | .mk attributes children =>
      (table.ruleFor attributes.kind).apply attributes (lowerAll table children)

def lowerAll (table : Table) : List Node → List Element
  | [] => []
  | node :: rest => lower table node :: lowerAll table rest

end

def renderAt (table : Table) (depth : Nat) (node : Node) : List Char :=
  (table.lower node).print depth

def render (table : Table) (node : Node) : String :=
  String.ofList (table.renderAt 0 node)

end Table

end Wireframe.Markup
