import Wireframe.Proofs.Markup.Rules

/-!
Contract: where the markup of a subtree stands in the markup of its tree.

Owns:
- `Table.ShowsAt`, the paths of the subtrees that a table lowers;
- the markup before and after that of a subtree, whatever the subtree is;
- subtrees that are not lowered.

Does not own: that the markup is well formed.
-/

namespace Wireframe.Markup

namespace Element

theorem printAll_append (depth : Nat) (left right : List Element) :
    printAll depth (left ++ right) = printAll depth left ++ printAll depth right := by
  induction left with
  | nil => simp [printAll]
  | cons element left inductionHypothesis =>
      rw [List.cons_append, printAll, printAll, inductionHypothesis, List.append_assoc]

/-- An element stands in a block between two texts that do not depend on it. -/
theorem print_block_around (depth : Nat) (tag : String) (attributes : List Attribute)
    (left right : List Element) :
    ∃ start finish : List Char, ∀ element : Element,
      print depth (.block tag attributes (left ++ element :: right)) =
        start ++ print (depth + 1) element ++ finish := by
  refine ⟨line depth ++ opening tag attributes ++ '>' :: printAll (depth + 1) left,
    printAll (depth + 1) right ++ (line depth ++ closing tag), fun element => ?_⟩
  have isBlock : print depth (.block tag attributes (left ++ element :: right)) =
      line depth ++ opening tag attributes ++ '>' ::
        (printAll (depth + 1) (left ++ element :: right) ++ (line depth ++ closing tag)) := by
    cases left <;> rfl
  rw [isBlock, printAll_append, printAll]
  simp only [List.append_assoc, List.cons_append]

end Element

namespace Table

variable {table : Table}

theorem lowerAll_append (table : Table) (left right : List Node) :
    table.lowerAll (left ++ right) = table.lowerAll left ++ table.lowerAll right := by
  simp only [lowerAll_eq_map, List.map_append]

/-! ### Subtrees that are lowered -/

/-- No node above the path bears a kind whose rule ignores children. -/
def ShowsAt (table : Table) (tree : Node) (path : List Nat) : Prop :=
  ∀ above node, above <+: path → above ≠ path → tree.at? above = some node →
    (table.ruleFor node.kind).keepsChildren = true

theorem showsAt_nil (table : Table) (tree : Node) : table.ShowsAt tree [] :=
  fun _ _ isPrefix isProper => absurd (List.prefix_nil.mp isPrefix) isProper

theorem showsAt_cons {attributes : Attributes} {left right : List Node} {child : Node}
    {path : List Nat} :
    table.ShowsAt (.mk attributes (left ++ child :: right)) (left.length :: path) ↔
      (table.ruleFor attributes.kind).keepsChildren = true ∧ table.ShowsAt child path := by
  constructor
  · intro shows
    refine ⟨shows [] _ List.nil_prefix (by simp) (Node.at?_nil _), ?_⟩
    intro above node isPrefix isProper present
    apply shows (left.length :: above) node
    · simpa using isPrefix
    · simpa using isProper
    · rw [Node.at?_cons]
      simpa using present
  · rintro ⟨keeps, shows⟩ above node isPrefix isProper present
    cases above with
    | nil =>
        rw [Node.at?_nil, Option.some.injEq] at present
        exact present ▸ keeps
    | cons index above =>
        rw [List.cons_prefix_cons] at isPrefix
        rcases isPrefix with ⟨rfl, isPrefix⟩
        rw [Node.at?_cons] at present
        refine shows above node isPrefix ?_ (by simpa using present)
        simpa using isProper

/-- The markup of a subtree stands between two texts that do not depend on it, at the
depth of its path. -/
theorem exists_renderAt_replaceAt {tree before : Node} {path : List Nat}
    (present : tree.at? path = some before) (shows : table.ShowsAt tree path) (depth : Nat) :
    ∃ start finish : List Char, ∀ subtree : Node,
      table.renderAt depth (tree.replaceAt path subtree) =
        start ++ table.renderAt (depth + path.length) subtree ++ finish := by
  induction path generalizing tree depth with
  | nil => exact ⟨[], [], fun subtree => by simp [Node.replaceAt_nil]⟩
  | cons index path inductionHypothesis =>
      cases tree with
      | mk attributes children =>
          rcases Node.exists_of_at?_cons present with ⟨left, child, right, rfl, rfl, below⟩
          rcases showsAt_cons.mp shows with ⟨keeps, showsBelow⟩
          rcases inductionHypothesis below showsBelow (depth + 1) with ⟨start, finish, inside⟩
          cases (table.ruleFor attributes.kind).uses attributes with
          | without ignores => exact absurd (keeps.symm.trans ignores) (by decide)
          | @around _ tag opening own _ _ applies =>
              rcases Element.print_block_around depth tag opening
                (own ++ table.lowerAll left) (table.lowerAll right) with ⟨outer, last, block⟩
              refine ⟨outer ++ start, finish ++ last, fun subtree => ?_⟩
              have lowered : table.lower ((Node.mk attributes (left ++ child :: right)).replaceAt
                  (left.length :: path) subtree) =
                  .block tag opening (own ++ table.lowerAll left ++
                    table.lower (child.replaceAt path subtree) :: table.lowerAll right) := by
                rw [Node.replaceAt_cons, lower, applies, lowerAll_append, lowerAll,
                  List.append_assoc]
              have deeper : depth + (left.length :: path).length = depth + 1 + path.length := by
                simp only [List.length_cons]
                omega
              have here := inside subtree
              unfold renderAt at here ⊢
              rw [lowered, block, here, deeper]
              simp only [List.append_assoc]

/-! ### Subtrees that are not lowered -/

/-- Nothing in the subtree reaches the markup where a node above ignores its
children. -/
theorem lower_replaceAt_of_hidden {tree before : Node} {path : List Nat}
    (present : tree.at? path = some before) (hidden : ¬ table.ShowsAt tree path)
    (subtree : Node) : table.lower (tree.replaceAt path subtree) = table.lower tree := by
  induction path generalizing tree with
  | nil => exact absurd (showsAt_nil table tree) hidden
  | cons index path inductionHypothesis =>
      cases tree with
      | mk attributes children =>
          rcases Node.exists_of_at?_cons present with ⟨left, child, right, rfl, rfl, below⟩
          rw [Node.replaceAt_cons, lower, lower]
          cases (table.ruleFor attributes.kind).uses attributes with
          | without _ _ _ applies => rw [applies, applies]
          | around keeps =>
              have hiddenBelow : ¬ table.ShowsAt child path :=
                fun shows => hidden (showsAt_cons.mpr ⟨keeps, shows⟩)
              rw [lowerAll_append, lowerAll_append, lowerAll, lowerAll,
                inductionHypothesis below hiddenBelow]

/-! ### Locality -/

/-- Lowering is local. If all nodes above a path show their children, the trees that
agree outside of the subtree there share a text before its markup and one after it,
and between the two stands the markup of whatever subtree is put there, at the depth
of the path. If one of them ignores its children, no subtree changes the markup. -/
theorem render_local (table : Table) {tree before : Node} {path : List Nat}
    (present : tree.at? path = some before) :
    (table.ShowsAt tree path → ∃ start finish : String, ∀ other inside : Node,
        Node.ReplacedAt before inside path tree other → ∀ subtree : Node,
          table.render (other.replaceAt path subtree) =
            start ++ String.ofList (table.renderAt path.length subtree) ++ finish) ∧
      (¬ table.ShowsAt tree path → ∀ subtree : Node,
        table.render (tree.replaceAt path subtree) = table.render tree) := by
  constructor
  · intro shows
    rcases exists_renderAt_replaceAt present shows 0 with ⟨start, finish, inside⟩
    refine ⟨String.ofList start, String.ofList finish, fun other _ replaced subtree => ?_⟩
    rw [replaced.replaceAt_eq, render, inside, Nat.zero_add]
    simp only [String.ofList_append]
  · intro hidden subtree
    unfold render renderAt
    rw [lower_replaceAt_of_hidden present hidden]

/-- A text inside of another node. -/
def caption : Node := .mk { id := "t", kind := .text, text := some "a < b" } []

def captionedButton : Node := .mk { id := "b", kind := .button } [caption]

def captionedCard : Node := .mk { id := "c", kind := .card, text := some "" } [caption]

/-- A button that ignores its child, and a card that shows its own. -/
def panel : Node := .mk { id := "s", kind := .stack } [captionedButton, captionedCard]

theorem render_local_panel :
    (∃ start finish : String, ∀ subtree : Node,
        Table.standard.render (panel.replaceAt [1, 0] subtree) =
          start ++ String.ofList (Table.standard.renderAt 2 subtree) ++ finish) ∧
      ∀ subtree : Node, Table.standard.render (panel.replaceAt [0, 0] subtree) =
        Table.standard.render panel := by
  have onCard : panel.at? [1, 0] = some caption := rfl
  have onButton : panel.at? [0, 0] = some caption := rfl
  have shown : Table.standard.ShowsAt panel [1, 0] := by
    have below : Table.standard.ShowsAt captionedCard [0] :=
      (@showsAt_cons .standard _ [] [] caption []).mpr ⟨by decide, showsAt_nil _ _⟩
    exact (@showsAt_cons .standard _ [captionedButton] [] captionedCard [0]).mpr
      ⟨by decide, below⟩
  have hidden : ¬ Table.standard.ShowsAt panel [0, 0] := by
    intro shows
    have keeps := shows [0] captionedButton (by decide) (by decide) rfl
    exact absurd keeps (by decide)
  rcases (render_local .standard onCard).1 shown with ⟨start, finish, around⟩
  exact ⟨⟨start, finish, around panel caption (Node.replacedAt_self onCard)⟩,
    (render_local .standard onButton).2 hidden⟩

end Table

end Wireframe.Markup
