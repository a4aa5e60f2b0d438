/-!
Contract: the component kinds.
-/

namespace Wireframe

/-- What a node of the component tree is. -/
inductive Kind where
  | page
  | sectioning
  | stack
  | grid
  | text
  | button
  | input
  | image
  | card
  | table
  | list
  | listItem
  | form
  | badge
  | nav
  | modal
  | hero
  | chart
deriving DecidableEq, Inhabited

namespace Kind

/-- Every kind, in the order of declaration. -/
def all : List Kind :=
  [.page, .sectioning, .stack, .grid, .text, .button, .input, .image, .card, .table, .list,
    .listItem, .form, .badge, .nav, .modal, .hero, .chart]

def name : Kind → String
  | .page => "page"
  | .sectioning => "section"
  | .stack => "stack"
  | .grid => "grid"
  | .text => "text"
  | .button => "button"
  | .input => "input"
  | .image => "image"
  | .card => "card"
  | .table => "table"
  | .list => "list"
  | .listItem => "listItem"
  | .form => "form"
  | .badge => "badge"
  | .nav => "nav"
  | .modal => "modal"
  | .hero => "hero"
  | .chart => "chart"

def ofName? (name : String) : Option Kind :=
  all.find? fun kind => kind.name == name

end Kind

end Wireframe
