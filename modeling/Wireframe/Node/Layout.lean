import Wireframe.Codec.Record

/-!
Contract: the size, place and flow of a node.

Owns:
- `Constraints`, hints for size and alignment, and `Layout`, geometry and flow;
- their JSON forms.

Does not own: the bounds on their numbers, which are checked on data.
-/

namespace Wireframe

open Codec Number

/-- How a node is aligned along an axis. -/
inductive Align where
  | start
  | center
  | finish
  | stretch
deriving DecidableEq

namespace Align

def all : List Align := [.start, .center, .finish, .stretch]

def name : Align → String
  | .start => "start"
  | .center => "center"
  | .finish => "end"
  | .stretch => "stretch"

end Align

/-- Hints for the size and alignment of a node. -/
structure Constraints where
  minWidth : Option Binary64 := none
  maxWidth : Option Binary64 := none
  minHeight : Option Binary64 := none
  maxHeight : Option Binary64 := none
  horizontalAlign : Option Align := none
  verticalAlign : Option Align := none
  grow : Option Binary64 := none
  shrink : Option Binary64 := none
  order : Option Binary64 := none
deriving BEq

namespace Constraints

def codec : Codec Constraints :=
  Codec.record "NodeConstraints"
    (.cons (.optional "minWidth" .double) <|
      .cons (.optional "maxWidth" .double) <|
      .cons (.optional "minHeight" .double) <|
      .cons (.optional "maxHeight" .double) <|
      .cons (.optional "horizontalAlign" (.choice Align.name Align.all)) <|
      .cons (.optional "verticalAlign" (.choice Align.name Align.all)) <|
      .cons (.optional "grow" .double) <|
      .cons (.optional "shrink" .double) <|
      .cons (.optional "order" .double) .nil)
    (fun (minWidth, maxWidth, minHeight, maxHeight, horizontalAlign, verticalAlign, grow,
        shrink, order, ()) =>
      ⟨minWidth, maxWidth, minHeight, maxHeight, horizontalAlign, verticalAlign, grow,
        shrink, order⟩)
    (fun constraints =>
      (constraints.minWidth, constraints.maxWidth, constraints.minHeight,
        constraints.maxHeight, constraints.horizontalAlign, constraints.verticalAlign,
        constraints.grow, constraints.shrink, constraints.order, ()))

end Constraints

/-- What a node's coordinates refer to. -/
inductive PositionMode where
  | relative
  | absolute
deriving DecidableEq

namespace PositionMode

def all : List PositionMode := [.relative, .absolute]

def name : PositionMode → String
  | .relative => "relative"
  | .absolute => "absolute"

end PositionMode

/-- The axis along which children follow one another. -/
inductive Direction where
  | row
  | column
deriving DecidableEq

namespace Direction

def all : List Direction := [.row, .column]

def name : Direction → String
  | .row => "row"
  | .column => "column"

end Direction

/-- The geometry and flow of a node. -/
structure Layout where
  position : Option PositionMode := none
  x : Option Binary64 := none
  y : Option Binary64 := none
  width : Option Binary64 := none
  height : Option Binary64 := none
  padding : Option (Codec.Quad Binary64) := none
  margin : Option (Codec.Quad Binary64) := none
  gap : Option Binary64 := none
  columns : Option Binary64 := none
  rows : Option Binary64 := none
  direction : Option Direction := none
  wrap : Option Bool := none
deriving BEq

namespace Layout

def codec : Codec Layout :=
  Codec.record "NodeLayout"
    (.cons (.optional "position" (.choice PositionMode.name PositionMode.all)) <|
      .cons (.optional "x" .double) <|
      .cons (.optional "y" .double) <|
      .cons (.optional "width" .double) <|
      .cons (.optional "height" .double) <|
      .cons (.optional "padding" (.quad .double)) <|
      .cons (.optional "margin" (.quad .double)) <|
      .cons (.optional "gap" .double) <|
      .cons (.optional "columns" .double) <|
      .cons (.optional "rows" .double) <|
      .cons (.optional "direction" (.choice Direction.name Direction.all)) <|
      .cons (.optional "wrap" .boolean) .nil)
    (fun (position, x, y, width, height, padding, margin, gap, columns, rows, direction,
        wrap, ()) =>
      ⟨position, x, y, width, height, padding, margin, gap, columns, rows, direction, wrap⟩)
    (fun layout =>
      (layout.position, layout.x, layout.y, layout.width, layout.height, layout.padding,
        layout.margin, layout.gap, layout.columns, layout.rows, layout.direction,
        layout.wrap, ()))

end Layout

end Wireframe
