import Wireframe.Bundle.Generate
import Wireframe.Digest.Fingerprint
import Wireframe.Proofs.Markup.Rules

/-!
Contract: what a bundle can depend on.

Owns:
- `Node.erase`, a tree without all that no file of a bundle shows;
- the standard rules lower a tree and its erased form to the same markup;
- documents that agree in what is shown have equal bundles, with equal digests.

Equal is meant exactly here: numbers that are shown are written with the signs of their
zeros.
-/

namespace Wireframe

open Markup Number

/-! ### Erasure -/

namespace Kind

/-- The kinds whose children are not shown. -/
def hidesChildren : Kind → Bool
  | .text | .button | .input | .image | .badge => true
  | _ => false

/-- The kinds whose own text is not shown. -/
def hidesText : Kind → Bool
  | .page | .image => true
  | _ => false

end Kind

/-- The layout that is shown: the gap, the columns, and the flow of the children. -/
def Layout.erase (layout : Layout) : Layout where
  gap := layout.gap
  columns := layout.columns
  direction := layout.direction
  wrap := layout.wrap

/-- The style that is shown. -/
def Style.erase (style : Style) : Style where
  emphasis := style.emphasis
  tone := style.tone
  background := style.background
  foreground := style.foreground
  border := some { radius := style.border.bind Border.radius }
  typography := some {
    fontSize := style.typography.bind Typography.fontSize
    fontWeight := style.typography.bind Typography.fontWeight }

/-- An event of which nothing is left but where it navigates. -/
def Event.link (target : String) : Event where
  id := ""
  trigger := .click
  action := ⟨.navigate, some [("href", .string target)]⟩
  description := none

/-- The first event that navigates, with its target alone. -/
def Event.eraseAll (events : List Event) : List Event :=
  ((events.findSome? navigationTarget).map link).toList

/-- The attributes that are shown of a node of the same kind. -/
def Attributes.erase (attributes : Attributes) : Attributes where
  id := ""
  kind := attributes.kind
  name := if attributes.kind = .image then attributes.name else none
  text := if attributes.kind.hidesText then none else attributes.text
  placeholder := if attributes.kind = .input then attributes.placeholder else none
  media := if attributes.kind = .image then attributes.media else none
  layout := attributes.layout.erase
  style := attributes.style.erase
  events := if attributes.kind = .button then Event.eraseAll attributes.events else []

namespace Node

mutual

/-- The tree with what is shown of every node. -/
def erase : Node → Node
  | mk attributes children =>
      mk attributes.erase (if attributes.kind.hidesChildren then [] else eraseAll children)

def eraseAll : List Node → List Node
  | [] => []
  | node :: rest => erase node :: eraseAll rest

end

theorem eraseAll_eq_map (nodes : List Node) : eraseAll nodes = nodes.map erase := by
  induction nodes with
  | nil => rfl
  | cons node rest inductionHypothesis => rw [eraseAll, inductionHypothesis, List.map_cons]

end Node

/-! ### Rules on erased attributes -/

namespace Attributes

variable (attributes : Attributes)

@[simp] theorem kind_erase : attributes.erase.kind = attributes.kind := rfl

theorem text_erase (shows : attributes.kind.hidesText = false) :
    attributes.erase.text = attributes.text := by
  rw [erase, shows]
  rfl

end Attributes

namespace Markup

section Parts

variable (attributes : Attributes)

theorem classed_erase (className : String) :
    classed attributes.erase className = classed attributes className :=
  rfl

theorem container_erase (shows : attributes.kind.hidesText = false) (children : List Element)
    (tag className : String) :
    container attributes.erase children tag className =
      container attributes children tag className := by
  rw [container, attributes.text_erase shows, classed_erase]
  rfl

end Parts

/-- The first target is left. -/
theorem findSome?_eraseAll (events : List Event) :
    (Event.eraseAll events).findSome? Event.navigationTarget =
      events.findSome? Event.navigationTarget := by
  unfold Event.eraseAll
  cases events.findSome? Event.navigationTarget with
  | none => rfl
  | some target => rfl

theorem buttonElement_erase {attributes : Attributes} (isButton : attributes.kind = .button) :
    Lowering.buttonElement attributes.erase = Lowering.buttonElement attributes := by
  have shows : attributes.kind.hidesText = false := by rw [isButton]; rfl
  have events : attributes.erase.events = Event.eraseAll attributes.events := if_pos isButton
  unfold Lowering.buttonElement
  rw [attributes.text_erase shows, events, findSome?_eraseAll]
  rfl

/-- A rule that reads the text of a node, and nothing that depends on the kind. -/
theorem apply_erase_of_shows {rule : Lowering} {attributes : Attributes}
    (shows : attributes.kind.hidesText = false)
    (usual : rule ≠ .button ∧ rule ≠ .input ∧ rule ≠ .image) (children : List Element) :
    rule.apply attributes.erase children = rule.apply attributes children := by
  have sameText := attributes.text_erase shows
  cases rule with
  | page => rfl
  | button => exact absurd rfl usual.1
  | input => exact absurd rfl usual.2.1
  | image => exact absurd rfl usual.2.2
  | hero | text | badge | fallback =>
      unfold Lowering.apply
      rw [sameText]
      rfl
  | sectioning | stack | grid | card | list | listItem | form | nav =>
      exact container_erase attributes shows children _ _

namespace Table

/-- The standard rule for a kind reads nothing that is erased from nodes of the kind. -/
theorem apply_erase (attributes : Attributes) (children : List Element) :
    (standard.ruleFor attributes.kind).apply attributes.erase children =
      (standard.ruleFor attributes.kind).apply attributes children := by
  cases isKind : attributes.kind with
  | page => rfl
  | button => exact buttonElement_erase isKind
  | input =>
      have shows : attributes.kind.hidesText = false := by rw [isKind]; rfl
      have samePlaceholder : attributes.erase.placeholder = attributes.placeholder :=
        if_pos isKind
      change Lowering.input.apply attributes.erase children =
        Lowering.input.apply attributes children
      unfold Lowering.apply
      rw [attributes.text_erase shows, samePlaceholder]
      rfl
  | image =>
      have sameName : attributes.erase.name = attributes.name := if_pos isKind
      have sameMedia : attributes.erase.media = attributes.media := if_pos isKind
      change Lowering.image.apply attributes.erase children =
        Lowering.image.apply attributes children
      unfold Lowering.apply
      rw [sameName, sameMedia]
      rfl
  | _ =>
      exact apply_erase_of_shows (by rw [isKind]; rfl) (by decide) children

theorem keepsChildren_standard (kind : Kind) :
    (standard.ruleFor kind).keepsChildren = !kind.hidesChildren := by
  cases kind <;> rfl

/-- Children that are not shown may be any others. -/
theorem apply_of_hidesChildren {attributes : Attributes}
    (hides : attributes.kind.hidesChildren = true) (children others : List Element) :
    (standard.ruleFor attributes.kind).apply attributes children =
      (standard.ruleFor attributes.kind).apply attributes others := by
  cases (standard.ruleFor attributes.kind).uses attributes with
  | without _ _ _ applies => rw [applies, applies]
  | around keeps =>
      rw [keepsChildren_standard, hides] at keeps
      exact absurd keeps (by decide)

/-- The markup of a tree shows nothing that is erased. -/
theorem lower_erase (tree : Node) : standard.lower tree.erase = standard.lower tree := by
  induction tree using Node.induction with
  | mk attributes children inductionHypothesis =>
      rw [Node.erase, lower, lower, Attributes.kind_erase, apply_erase]
      cases hides : attributes.kind.hidesChildren with
      | true => exact apply_of_hidesChildren hides _ _
      | false =>
          have below : standard.lowerAll (Node.eraseAll children) = standard.lowerAll children := by
            rw [lowerAll_eq_map, lowerAll_eq_map, Node.eraseAll_eq_map, List.map_map]
            exact List.map_congr_left inductionHypothesis
          rw [if_neg Bool.false_ne_true, below]

theorem render_erase (tree : Node) : standard.render tree.erase = standard.render tree := by
  unfold render renderAt
  rw [lower_erase]

end Table

end Markup

/-! ### Bundles -/

namespace Document

/-- Two documents agree in all that the files of a bundle show. -/
structure SameShown (first second : Document) : Prop where
  name : Bundle.packageName first.id = Bundle.packageName second.id
  version : first.version = second.version
  locale : first.locale = second.locale
  title : first.title = second.title
  description : first.description.getD "" = second.description.getD ""
  accent : Bundle.accentColor first = Bundle.accentColor second
  font : Bundle.bodyFont first = Bundle.bodyFont second
  tree : first.layoutTree.erase = second.layoutTree.erase

namespace SameShown

variable {first second : Document}

theorem component (same : first.SameShown second) :
    Bundle.component .standard first = Bundle.component .standard second := by
  unfold Bundle.component
  rw [← Table.render_erase first.layoutTree, same.tree, Table.render_erase]

theorem manifestFile (same : first.SameShown second) (framework : Framework) :
    Bundle.manifestFile first framework = Bundle.manifestFile second framework := by
  have members : Bundle.sharedMembers first = Bundle.sharedMembers second := by
    unfold Bundle.sharedMembers
    rw [same.name, same.version]
  unfold Bundle.manifestFile
  cases framework with
  | next => rw [Bundle.manifest, members, ← Bundle.manifest]
  | react => rw [Bundle.manifest, members, ← Bundle.manifest]

theorem styleFile (same : first.SameShown second) :
    Bundle.styleFile first = Bundle.styleFile second := by
  unfold Bundle.styleFile
  rw [same.accent, same.font]

theorem layoutFile (same : first.SameShown second) :
    Bundle.layoutFile first = Bundle.layoutFile second := by
  unfold Bundle.layoutFile
  rw [same.title, same.description, same.locale]

theorem hostFile (same : first.SameShown second) :
    Bundle.hostFile first = Bundle.hostFile second := by
  unfold Bundle.hostFile
  rw [same.locale, same.title]

theorem files (same : first.SameShown second) (framework : Framework) :
    Bundle.files .standard first framework = Bundle.files .standard second framework := by
  cases framework with
  | next =>
      rw [Bundle.files, same.styleFile, same.layoutFile, Bundle.page, same.component,
        same.manifestFile, ← Bundle.page, ← Bundle.files]
  | react =>
      rw [Bundle.files, same.hostFile, same.manifestFile, same.component, ← Bundle.files]

end SameShown

/-- Nothing reaches a bundle but what is shown. -/
theorem generate_eq_of_sameShown {first second : Document} (same : first.SameShown second)
    (framework : Framework) :
    first.generate ⟨framework⟩ = second.generate ⟨framework⟩ ∧
      (first.generate ⟨framework⟩).fileDigests = (second.generate ⟨framework⟩).fileDigests ∧
      (first.generate ⟨framework⟩).digest = (second.generate ⟨framework⟩).digest := by
  have sameBundle : first.generate ⟨framework⟩ = second.generate ⟨framework⟩ := by
    unfold generate generateWith
    rw [same.files]
  rw [sameBundle]
  exact ⟨rfl, rfl, rfl⟩

/-- A document whose tree is one button. -/
def ofButton (id : String) (button : Attributes) (children : List Node) : Document where
  id := id
  version := defaultVersion
  createdAt := .epoch
  locale := defaultLocale
  title := defaultTitle
  description := none
  layoutTree := .mk { button with kind := .button } children
  assets := []
  dataSources := []
  theme := .baseline
  metadata := {}

/-- A button with a child, a role, a place, and a second target behind the first. -/
def busyButton : Document :=
  let events := [Event.link "/next", Event.link "/other"]
  let layout : Layout := { position := some .absolute, wrap := some true }
  let button : Attributes := { id := "a", kind := .button, role := some "link", layout, events }
  ofButton "My Shop" button [.mk { id := "a", kind := .text } []]

/-- The same button with nothing that is not shown. -/
def plainButton : Document :=
  let events := [Event.link "/next"]
  let layout : Layout := { wrap := some true }
  let button : Attributes := { id := "b", kind := .button, layout, events }
  { ofButton "my-shop" button [] with description := some "" }

theorem generate_busyButton :
    busyButton.id ≠ plainButton.id ∧
      busyButton.generate ⟨.react⟩ = plainButton.generate ⟨.react⟩ ∧
      (busyButton.generate ⟨.react⟩).fileDigests = (plainButton.generate ⟨.react⟩).fileDigests ∧
      (busyButton.generate ⟨.react⟩).digest = (plainButton.generate ⟨.react⟩).digest := by
  have same : busyButton.SameShown plainButton := {
    name := by decide
    version := rfl
    locale := rfl
    title := rfl
    description := rfl
    accent := rfl
    font := rfl
    tree := rfl }
  exact ⟨by decide, generate_eq_of_sameShown same .react⟩

end Document

end Wireframe
