import Wireframe.Markup.Element
import Wireframe.Node.Basic

/-!
Contract: what each kind of node becomes in markup.

Owns:
- the classes and style properties that a node's attributes call for;
- `Lowering`, the rules by which a node and its lowered children become an
  element.

Does not own: which kind a rule is used for.
-/

namespace Wireframe.Markup

open Number

/-- The style properties that no class covers. -/
def styleProperties (style : Style) : List (String × StyleValue) :=
  let text (name : String) (value : Option String) : List (String × StyleValue) :=
    (value.map fun value => (name, .text value)).toList
  let number (name : String) (value : Option Binary64) : List (String × StyleValue) :=
    (value.map fun value => (name, .number value)).toList
  text "background" style.background ++
    text "color" style.foreground ++
    number "borderRadius" (style.border.bind Border.radius) ++
    number "fontSize" (style.typography.bind Typography.fontSize) ++
    text "fontWeight" (style.typography.bind Typography.fontWeight)

/-- The style attribute of a node, if it has a property. -/
def styleAttributes (attributes : Attributes) : List Attribute :=
  match styleProperties attributes.style with
  | [] => []
  | properties => [.style properties]

def classed (attributes : Attributes) (className : String) : List Attribute :=
  .quoted "className" className :: styleAttributes attributes

def gapClass (attributes : Attributes) (standard : String) : String :=
  match attributes.layout.gap with
  | some gap => "gap-[" ++ String.ofList (Spelling.markup.write gap) ++ "px]"
  | none => standard

/-- The greatest number of columns. -/
def columnLimit : Nat := 4294967295

/-- The number of columns: fractions round up, and there is always one. -/
def columnCount (attributes : Attributes) (standard : Nat) : Nat :=
  match attributes.layout.columns with
  | some columns => min columnLimit (max 1 columns.ceiling).toNat
  | none => standard

def emphasisClasses : Option Emphasis → String
  | some .secondary => "px-6 py-3 rounded-lg bg-slate-800 text-white"
  | some .danger => "px-6 py-3 rounded-lg bg-red-600 text-white"
  | some .ghost => "px-6 py-3 rounded-lg bg-transparent text-slate-900"
  | some .default => "px-6 py-3 rounded-lg border border-slate-300 bg-white text-slate-900"
  | some .primary | none => "px-6 py-3 rounded-lg bg-blue-600 text-white"

def toneClasses : Option Tone → String
  | some .success => "bg-green-100 text-green-800"
  | some .warning => "bg-amber-100 text-amber-800"
  | some .error => "bg-red-100 text-red-800"
  | some .info => "bg-blue-100 text-blue-800"
  | some .neutral | none => "bg-slate-100 text-slate-800"

/-- An element around the node's own text and its children. -/
def container (attributes : Attributes) (children : List Element) (tag className : String) :
    Element :=
  .block tag (classed attributes className)
    ((attributes.text.map Element.text).toList ++ children)

/-- An element on one line around a text alone. -/
def leaf (attributes : Attributes) (tag className text : String) : Element :=
  .inline tag (classed attributes className) text

/-- A rule by which a node becomes an element. -/
inductive Lowering where
  | page
  | hero
  | sectioning
  | stack
  | grid
  | text
  | button
  | input
  | image
  | card
  | list
  | listItem
  | form
  | badge
  | nav
  /-- For kinds without a rule of their own. -/
  | fallback
deriving DecidableEq

namespace Lowering

def keepsChildren : Lowering → Bool
  | .text | .button | .input | .image | .badge => false
  | _ => true

def stackClass (attributes : Attributes) : String :=
  let direction := match attributes.layout.direction with
    | some .row => "flex-row"
    | _ => "flex-col"
  let wrap := if attributes.layout.wrap == some true then " flex-wrap" else ""
  let gap := gapClass attributes "gap-4"
  s!"flex {direction}{wrap} {gap}"

/-- A button, or a link if one of its events navigates. -/
def buttonElement (attributes : Attributes) : Element :=
  let label := attributes.text.getD "Button"
  let shared := classed attributes (emphasisClasses attributes.style.emphasis)
  match attributes.events.findSome? Event.navigationTarget with
  | some target => .inline "a" (.quoted "href" target :: shared) label
  | none => .inline "button" (.quoted "type" "button" :: shared) label

/-- The element of a node, given those of its children. -/
def apply (rule : Lowering) (attributes : Attributes) (children : List Element) : Element :=
  match rule with
  | .page =>
      .block "main" (classed attributes "min-h-screen bg-slate-50 text-slate-900") children
  | .hero =>
      let heading := Element.inline "h1"
        [.quoted "className" "text-4xl font-bold text-slate-900"]
        (attributes.text.getD "Welcome")
      .block "section" (classed attributes "flex flex-col items-center gap-6 py-16")
        (heading :: children)
  | .sectioning =>
      let gap := gapClass attributes "gap-6"
      let columns := columnCount attributes 3
      container attributes children "section" s!"grid {gap} md:grid-cols-{columns}"
  | .stack => container attributes children "div" (stackClass attributes)
  | .grid =>
      let gap := gapClass attributes "gap-4"
      let columns := columnCount attributes 2
      container attributes children "div" s!"grid grid-cols-{columns} {gap}"
  | .text => leaf attributes "p" "text-base text-slate-700" (attributes.text.getD "")
  | .button => buttonElement attributes
  | .input =>
      .void "input"
        (.quoted "className" "w-full rounded-lg border border-slate-300 px-4 py-2" ::
          .quoted "placeholder" ((attributes.placeholder.or attributes.text).getD "") ::
          styleAttributes attributes)
  | .image =>
      let source := (attributes.media.map Media.uri).getD ""
      let label := ((attributes.media.bind Media.description).or attributes.name).getD ""
      .void "img"
        (.quoted "className" "max-w-full rounded-lg" :: .quoted "src" source ::
          .quoted "alt" label :: styleAttributes attributes)
  | .card =>
      container attributes children "div"
        "rounded-xl border border-slate-200 bg-white p-6 shadow-sm"
  | .list => container attributes children "ul" "flex flex-col gap-2"
  | .listItem => container attributes children "li" "text-slate-700"
  | .form => container attributes children "form" "flex flex-col gap-4"
  | .badge =>
      leaf attributes "span"
        ("inline-flex rounded-full px-3 py-1 text-xs " ++
          toneClasses attributes.style.tone)
        (attributes.text.getD "")
  | .nav => container attributes children "nav" "flex items-center gap-6"
  | .fallback =>
      .block "div"
        (.quoted "data-node-type" attributes.kind.name :: styleAttributes attributes)
        ((attributes.text.map Element.text).toList ++ children)

end Lowering

end Wireframe.Markup
