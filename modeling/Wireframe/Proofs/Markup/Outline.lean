import Wireframe.Proofs.Markup.Elements

/-!
Contract: what the markup of a tree tells where no rule is registered.

Owns:
- `Node.SameOutline`, trees that agree in shape, kinds and texts;
- the tokens of a node lowered by the fallback, cut where its children start;
- trees with the same markup, which have the same outline.

Does not own: trees lowered by other rules. These show neither kinds nor all texts.
-/

namespace Wireframe

namespace Kind

theorem name_injective {left right : Kind} (same : left.name = right.name) : left = right := by
  have isKind (kind : Kind) : ofName? kind.name = some kind := by
    cases kind <;> rfl
  rw [← Option.some.injEq, ← isKind left, ← isKind right, same]

end Kind

namespace Node

/-- What a node shows without its children. A text that is absent is not an empty one. -/
structure Outline where
  kind : Kind
  text : Option String
  childCount : Nat

def outline (node : Node) : Outline :=
  ⟨node.kind, node.attributes.text, node.children.length⟩

/-- The trees have nodes at the same paths, and these show the same. -/
def SameOutline (left right : Node) : Prop :=
  ∀ path, (left.at? path).map outline = (right.at? path).map outline

theorem sameOutline_mk {left right : Attributes} {lefts rights : List Node}
    (kinds : left.kind = right.kind) (texts : left.text = right.text)
    (children : List.Forall₂ SameOutline lefts rights) :
    SameOutline (.mk left lefts) (.mk right rights) := by
  intro path
  cases path with
  | nil =>
      have isOutline : outline (.mk left lefts) = outline (.mk right rights) := by
        simp only [outline, kind, attributes_mk, children_mk, kinds, texts, children.length_eq]
      simp only [at?_nil, Option.map_some, isOutline]
  | cons index path =>
      rw [at?_cons, at?_cons]
      induction children generalizing index with
      | nil => simp
      | cons here _ inductionHypothesis =>
          cases index with
          | zero => simpa using here path
          | succ index => simpa using inductionHypothesis index

end Node

namespace Markup

open Element

/-! ### Runs of characters -/

/-- No character comes first. -/
def StartsWithTag (tokens : List Token) : Prop :=
  ∀ char, tokens.head? ≠ some (.char char)

/-- Characters before a tag are told apart from those before another. -/
theorem charTokens_append_inj {left right : List Char} {rest other : List Token}
    (same : charTokens left ++ rest = charTokens right ++ other)
    (tag : StartsWithTag rest) (otherTag : StartsWithTag other) :
    left = right ∧ rest = other := by
  induction left generalizing right with
  | nil =>
      cases right with
      | nil => exact ⟨rfl, same⟩
      | cons char right => exact absurd (congrArg List.head? same) (tag char)
  | cons char left inductionHypothesis =>
      cases right with
      | nil => exact absurd (congrArg List.head? same).symm (otherTag char)
      | cons next right =>
          rcases List.cons.inj same with ⟨sameChar, sameTail⟩
          rcases inductionHypothesis sameTail with ⟨rfl, sameRest⟩
          exact ⟨congrArg (· :: left) (Token.char.inj sameChar), sameRest⟩

/-! ### Tokens of nodes without a rule -/

/-- What stands before the next child, or before the closing tag after the last one. -/
def gap (depth : Nat) (children : List Node) : List Char :=
  if children.isEmpty then line depth else line (depth + 1)

/-- The tokens of children from the first tag on, up to the end of their parent. -/
def childTokens (depth : Nat) (rest : List Token) : List Node → List Token
  | [] => .closes "div" :: rest
  | child :: children =>
      (Table.empty.lower child).tokens (depth + 1) ++
        (charTokens (gap depth children) ++ childTokens depth rest children)

/-- The characters between the opening tag of a node and the next tag. -/
def ownChars (depth : Nat) (text : Option String) (children : List Node) : List Char :=
  match text with
  | none => if children.isEmpty then [] else line (depth + 1)
  | some text => line (depth + 1) ++ (text.toList ++ gap depth children)

/-- The attributes of the element of a node without a rule. -/
def fallbackAttributes (attributes : Attributes) : List Attribute :=
  .quoted "data-node-type" attributes.kind.name :: styleAttributes attributes

theorem lower_empty (attributes : Attributes) (children : List Node) :
    Table.empty.lower (.mk attributes children) =
      .block "div" (fallbackAttributes attributes)
        ((attributes.text.map Element.text).toList ++ Table.empty.lowerAll children) :=
  rfl

theorem gap_childTokens (depth : Nat) (rest : List Token) (children : List Node) :
    charTokens (gap depth children) ++ childTokens depth rest children =
      tokensAll (depth + 1) (Table.empty.lowerAll children) ++
        (charTokens (line depth) ++ .closes "div" :: rest) := by
  induction children with
  | nil => rfl
  | cons child children inductionHypothesis =>
      rw [childTokens, inductionHypothesis, Table.lowerAll, tokensAll]
      simp only [gap, List.isEmpty_cons, List.append_assoc]
      rfl

theorem charTokens_append (left right : List Char) :
    charTokens (left ++ right) = charTokens left ++ charTokens right :=
  List.map_append

theorem bodyEnd_cons (depth : Nat) (element : Element) (body : List Element) :
    bodyEnd depth (element :: body) = line depth :=
  rfl

/-- The text and the children of a node, up to the end of its element. -/
theorem tokens_body (depth : Nat) (text : Option String) (children : List Node)
    (rest : List Token) :
    tokensAll (depth + 1) ((text.map Element.text).toList ++ Table.empty.lowerAll children) ++
        (charTokens (bodyEnd depth
          ((text.map Element.text).toList ++ Table.empty.lowerAll children)) ++
          .closes "div" :: rest) =
      charTokens (ownChars depth text children) ++ childTokens depth rest children := by
  cases text with
  | none =>
      cases children with
      | nil => rfl
      | cons child children => exact (gap_childTokens depth rest (child :: children)).symm
  | some text =>
      simp only [Option.map_some, Option.toList_some, List.singleton_append, bodyEnd_cons,
        tokensAll, tokens, ownChars, charTokens_append, List.append_assoc, gap_childTokens]

theorem tokens_lower_empty (depth : Nat) (attributes : Attributes) (children : List Node)
    (rest : List Token) :
    (Table.empty.lower (.mk attributes children)).tokens depth ++ rest =
      .opens "div" (fallbackAttributes attributes) ::
        (charTokens (ownChars depth attributes.text children) ++
          childTokens depth rest children) := by
  rw [lower_empty, tokens, ← tokens_body]
  simp only [List.cons_append, List.append_assoc, List.nil_append]

theorem head?_childTokens_nil (depth : Nat) (rest : List Token) :
    (childTokens depth rest []).head? = some (.closes "div") :=
  rfl

theorem head?_childTokens_cons (depth : Nat) (rest : List Token) (child : Node)
    (children : List Node) :
    (childTokens depth rest (child :: children)).head? =
      some (.opens "div" (fallbackAttributes child.attributes)) := by
  cases child with
  | mk attributes inside =>
      rw [childTokens, tokens_lower_empty, List.head?_cons, Node.attributes_mk]

theorem startsWithTag_childTokens (depth : Nat) (rest : List Token) (children : List Node) :
    StartsWithTag (childTokens depth rest children) := by
  intro char
  cases children with
  | nil => simp [head?_childTokens_nil]
  | cons child children => simp [head?_childTokens_cons]

/-! ### What the tokens tell -/

section Told

variable {depth : Nat} {rest other : List Token} {lefts rights : List Node}

/-- The tag that closes the parent is no tag of a child. -/
theorem isEmpty_eq_of_childTokens
    (same : childTokens depth rest lefts = childTokens depth other rights) :
    lefts.isEmpty = rights.isEmpty := by
  have heads := congrArg List.head? same
  cases lefts with
  | nil =>
      cases rights with
      | nil => rfl
      | cons right rights => simp [head?_childTokens_nil, head?_childTokens_cons] at heads
  | cons left lefts =>
      cases rights with
      | nil => simp [head?_childTokens_nil, head?_childTokens_cons] at heads
      | cons right rights => rfl

theorem line_ne_nil (depth : Nat) : line depth ≠ [] :=
  List.cons_ne_nil _ _

theorem gap_ne_nil (depth : Nat) (children : List Node) : gap depth children ≠ [] := by
  unfold gap
  split <;> exact line_ne_nil _

/-- The characters of a node without a text are no characters of one with a text. -/
theorem ownChars_none_ne (depth : Nat) (text : String) (children : List Node) :
    ownChars depth none children ≠ ownChars depth (some text) children := by
  intro same
  by_cases noChildren : children.isEmpty = true
  · simp only [ownChars, if_pos noChildren] at same
    exact List.append_ne_nil_of_left_ne_nil (line_ne_nil _) _ same.symm
  · simp only [ownChars, if_neg noChildren] at same
    have noGap := List.append_right_eq_self.mp same.symm
    exact List.append_ne_nil_of_right_ne_nil _ (gap_ne_nil depth children) noGap

/-- Where both nodes have children or neither has, their own characters tell their texts. -/
theorem text_eq_of_ownChars {left right : Option String}
    (same : ownChars depth left lefts = ownChars depth right rights)
    (both : lefts.isEmpty = rights.isEmpty) : left = right := by
  have sameGap : gap depth lefts = gap depth rights := by rw [gap, gap, both]
  have sameLefts (text : Option String) :
      ownChars depth text lefts = ownChars depth text rights := by
    simp only [ownChars, sameGap, both]
  rw [sameLefts] at same
  cases left with
  | none =>
      cases right with
      | none => rfl
      | some text => exact absurd same (ownChars_none_ne depth text rights)
  | some text =>
      cases right with
      | none => exact absurd same.symm (ownChars_none_ne depth text rights)
      | some other =>
          have sameChars := List.append_cancel_right (List.append_cancel_left same)
          rw [String.toList_inj.mp sameChars]

/-- The tokens of a node tell its outline and where they end, whatever follows them. -/
def Told (left : Node) : Prop :=
  ∀ {right : Node} {depth : Nat} {rest other : List Token},
    (Table.empty.lower left).tokens depth ++ rest =
      (Table.empty.lower right).tokens depth ++ other →
    left.SameOutline right ∧ rest = other

theorem told_children (told : ∀ child ∈ lefts, Told child)
    (same : childTokens depth rest lefts = childTokens depth other rights) :
    List.Forall₂ Node.SameOutline lefts rights ∧ rest = other := by
  induction lefts generalizing rights with
  | nil =>
      cases rights with
      | nil => exact ⟨.nil, (List.cons.inj same).2⟩
      | cons right rights => exact absurd (isEmpty_eq_of_childTokens same) nofun
  | cons left lefts inductionHypothesis =>
      cases rights with
      | nil => exact absurd (isEmpty_eq_of_childTokens same) nofun
      | cons right rights =>
          rcases List.forall_mem_cons.mp told with ⟨toldHere, toldBelow⟩
          -- What follows the first children is the same, so that the others can be compared.
          rcases toldHere same with ⟨here, sameRest⟩
          rcases charTokens_append_inj sameRest (startsWithTag_childTokens _ _ _)
            (startsWithTag_childTokens _ _ _) with ⟨_, sameBelow⟩
          rcases inductionHypothesis toldBelow sameBelow with ⟨below, sameEnd⟩
          exact ⟨.cons here below, sameEnd⟩

theorem told (node : Node) : Told node := by
  induction node using Node.induction with
  | mk attributes children inductionHypothesis =>
      intro right depth rest other same
      cases right with
      | mk others rights =>
          rw [tokens_lower_empty, tokens_lower_empty] at same
          -- The opening tags tell the kinds, the runs before the next tags tell the texts.
          rcases List.cons.inj same with ⟨sameTag, sameBody⟩
          rcases charTokens_append_inj sameBody (startsWithTag_childTokens _ _ _)
            (startsWithTag_childTokens _ _ _) with ⟨sameChars, sameChildren⟩
          rcases told_children inductionHypothesis sameChildren with ⟨below, sameEnd⟩
          have sameName : attributes.kind.name = others.kind.name := by
            simp only [Token.opens.injEq, fallbackAttributes, List.cons.injEq,
              Attribute.quoted.injEq] at sameTag
            exact sameTag.2.1.2
          have sameText : attributes.text = others.text :=
            text_eq_of_ownChars sameChars (isEmpty_eq_of_childTokens sameChildren)
          exact ⟨Node.sameOutline_mk (Kind.name_injective sameName) sameText below, sameEnd⟩

end Told

/-! ### Trees with the same markup -/

namespace Table

/-- Trees that are rendered alike without any rule have the same outline: nodes at the same
paths, of the same kinds, with the same texts or none, and as many children. -/
theorem sameOutline_of_render_eq {left right : Node}
    (same : Table.empty.render left = Table.empty.render right) : left.SameOutline right := by
  rcases Table.empty.tokens?_render left with ⟨markup, isText, isRead⟩
  rcases Table.empty.tokens?_render right with ⟨other, isOther, isReadOther⟩
  have sameMarkup : markup = other := by
    rw [same, isOther] at isText
    exact (List.append_cancel_left isText).symm
  have sameTokens : (Table.empty.lower left).tokens 0 = (Table.empty.lower right).tokens 0 := by
    rw [sameMarkup, isReadOther] at isRead
    exact (Option.some.inj isRead).symm
  exact (told left (congrArg (· ++ []) sameTokens)).1

/-- A stack with an empty text, around a text that is spelled like a line of markup. -/
def quotation (id : String) : Node :=
  .mk { id, kind := .stack, text := some "" }
    [.mk { id := "t", kind := .text, text := some "\n      </div>" } []]

/-- The markup tells no ids. -/
theorem sameOutline_quotation :
    Table.empty.render (quotation "a") = Table.empty.render (quotation "b") ∧
      (quotation "a").SameOutline (quotation "b") :=
  ⟨rfl, sameOutline_of_render_eq rfl⟩

end Table

end Markup

end Wireframe
