import Wireframe.Markup.Table
import Wireframe.Proofs.Node.Paths

/-!
Contract: what the lowering rules make of a node.

Owns:
- the number of elements in a piece of markup;
- `Element.Plain`, where tags and attributes bear plain names;
- `Lowering.Uses`, all that a rule may do with the elements of the children;
- lowered trees, which bear plain names all through.

Does not own: any text of markup.
-/

namespace Wireframe.Markup

/-! ### Elements -/

/-- The characters of the names of tags, attributes and style properties. -/
def isNameChar (char : Char) : Bool :=
  char.isAlphanum || char == '-'

/-- A letter, and name characters after it. -/
def isName : List Char → Bool
  | [] => false
  | char :: rest => char.isAlpha && rest.all isNameChar

namespace Attribute

def isPlain : Attribute → Bool
  | .quoted name _ => isName name.toList
  | .style properties => properties.all fun property => isName property.1.toList

end Attribute

namespace Element

mutual

/-- The number of elements. A text is none. -/
def count : Element → Nat
  | .text _ => 0
  | .void _ _ => 1
  | .inline _ _ _ => 1
  | .block _ _ body => 1 + countAll body

def countAll : List Element → Nat
  | [] => 0
  | element :: rest => count element + countAll rest

end

/-- All tags, attributes and style properties have names that are spelled as such. -/
inductive Plain : Element → Prop
  | text (value : String) : Plain (.text value)
  | void {tag : String} {attributes : List Attribute} (name : isName tag.toList = true)
      (plain : attributes.all Attribute.isPlain = true) : Plain (.void tag attributes)
  | inline {tag : String} {attributes : List Attribute} (name : isName tag.toList = true)
      (plain : attributes.all Attribute.isPlain = true) (value : String) :
      Plain (.inline tag attributes value)
  | block {tag : String} {attributes : List Attribute} {body : List Element}
      (name : isName tag.toList = true) (plain : attributes.all Attribute.isPlain = true)
      (inside : ∀ element ∈ body, Plain element) : Plain (.block tag attributes body)

theorem countAll_append (left right : List Element) :
    countAll (left ++ right) = countAll left + countAll right := by
  induction left with
  | nil => simp [countAll]
  | cons element left inductionHypothesis =>
      rw [List.cons_append, countAll, countAll, inductionHypothesis, Nat.add_assoc]

end Element

/-! ### Rules -/

namespace Lowering

/-- The number of elements that a rule puts before those of the children. -/
def headings : Lowering → Nat
  | .hero => 1
  | _ => 0

theorem headings_of_ignores {rule : Lowering} (ignores : rule.keepsChildren = false) :
    rule.headings = 0 := by
  cases rule with
  | hero => exact absurd ignores (by decide)
  | _ => rfl

/-- A rule puts the elements of the children behind its own parts, all of them and
unchanged, or it leaves every one of them out. -/
inductive Uses (rule : Lowering) (attributes : Attributes) : Prop
  | around (keeps : rule.keepsChildren = true) {tag : String} {opening : List Attribute}
      {own : List Element} (plain : (Element.block tag opening own).Plain)
      (counts : Element.countAll own = rule.headings)
      (applies : ∀ children, rule.apply attributes children =
        .block tag opening (own ++ children))
  | without (ignores : rule.keepsChildren = false) {element : Element} (plain : element.Plain)
      (counts : element.count = 1) (applies : ∀ children, rule.apply attributes children = element)

theorem all_isPlain_styleAttributes (attributes : Attributes) :
    (styleAttributes attributes).all Attribute.isPlain = true := by
  have names : ∀ property ∈ styleProperties attributes.style,
      isName property.1.toList = true := by
    intro property isMember
    simp only [styleProperties, List.mem_append, Option.mem_toList, Option.map_eq_some_iff]
      at isMember
    rcases isMember with ((((⟨_, _, rfl⟩ | ⟨_, _, rfl⟩) | ⟨_, _, rfl⟩) | ⟨_, _, rfl⟩) |
      ⟨_, _, rfl⟩)
    all_goals
      dsimp only
      decide
  unfold styleAttributes
  split
  · rfl
  · simpa [Attribute.isPlain] using names

theorem all_isPlain_quoted {name : String} (isPlainName : isName name.toList = true)
    (value : String) {rest : List Attribute} (plain : rest.all Attribute.isPlain = true) :
    (Attribute.quoted name value :: rest).all Attribute.isPlain = true := by
  simp [Attribute.isPlain, isPlainName, plain]

theorem all_isPlain_classed (attributes : Attributes) (className : String) :
    (classed attributes className).all Attribute.isPlain = true :=
  all_isPlain_quoted (by decide) className (all_isPlain_styleAttributes attributes)

/-- The text of a node among the parts of its element. -/
theorem plain_of_mem_text {text : Option String} :
    ∀ element ∈ (text.map Element.text).toList, element.Plain := by
  cases text with
  | none => simp
  | some value => simpa using Element.Plain.text value

theorem countAll_text (text : Option String) :
    Element.countAll (text.map Element.text).toList = 0 := by
  cases text <;> simp [Element.countAll, Element.count]

section Uses

variable {rule : Lowering} {attributes : Attributes}

theorem uses_of_container {tag className : String} (keeps : rule.keepsChildren = true)
    (noHeading : rule.headings = 0) (name : isName tag.toList = true)
    (applies : ∀ children, rule.apply attributes children =
      container attributes children tag className) : rule.Uses attributes :=
  .around keeps (.block name (all_isPlain_classed attributes className) plain_of_mem_text)
    ((countAll_text attributes.text).trans noHeading.symm) applies

theorem uses_of_leaf {tag className text : String} (ignores : rule.keepsChildren = false)
    (name : isName tag.toList = true)
    (applies : ∀ children, rule.apply attributes children = leaf attributes tag className text) :
    rule.Uses attributes :=
  .without ignores (.inline name (all_isPlain_classed attributes className) text) rfl applies

theorem uses_button (attributes : Attributes) : Lowering.button.Uses attributes := by
  have plain : (buttonElement attributes).Plain ∧ (buttonElement attributes).count = 1 := by
    unfold buttonElement
    have shared := all_isPlain_classed attributes (emphasisClasses attributes.style.emphasis)
    split
    · exact ⟨.inline (by decide) (all_isPlain_quoted (by decide) _ shared) _, rfl⟩
    · exact ⟨.inline (by decide) (all_isPlain_quoted (by decide) _ shared) _, rfl⟩
  exact .without rfl plain.1 plain.2 fun _ => rfl

theorem uses (rule : Lowering) (attributes : Attributes) : rule.Uses attributes := by
  have styled := all_isPlain_styleAttributes attributes
  cases rule with
  | page =>
      exact .around rfl (.block (by decide) (all_isPlain_classed _ _) (List.forall_mem_nil _)) rfl
        fun _ => rfl
  | hero =>
      refine @Uses.around _ _ rfl _ _ [_]
        (.block (by decide) (all_isPlain_classed _ _) ?_) rfl fun _ => rfl
      rw [List.forall_mem_singleton]
      exact .inline (by decide) (by decide) _
  | sectioning => exact uses_of_container rfl rfl (by decide) fun _ => rfl
  | stack => exact uses_of_container rfl rfl (by decide) fun _ => rfl
  | grid => exact uses_of_container rfl rfl (by decide) fun _ => rfl
  | text => exact uses_of_leaf rfl (by decide) fun _ => rfl
  | button => exact uses_button attributes
  | input =>
      exact .without rfl (.void (by decide) (all_isPlain_quoted (by decide) _
        (all_isPlain_quoted (by decide) _ styled))) rfl fun _ => rfl
  | image =>
      exact .without rfl (.void (by decide) (all_isPlain_quoted (by decide) _
        (all_isPlain_quoted (by decide) _ (all_isPlain_quoted (by decide) _ styled)))) rfl
        fun _ => rfl
  | card => exact uses_of_container rfl rfl (by decide) fun _ => rfl
  | list => exact uses_of_container rfl rfl (by decide) fun _ => rfl
  | listItem => exact uses_of_container rfl rfl (by decide) fun _ => rfl
  | form => exact uses_of_container rfl rfl (by decide) fun _ => rfl
  | badge => exact uses_of_leaf rfl (by decide) fun _ => rfl
  | nav => exact uses_of_container rfl rfl (by decide) fun _ => rfl
  | fallback =>
      exact .around rfl (.block (by decide) (all_isPlain_quoted (by decide) _ styled)
        plain_of_mem_text) (countAll_text attributes.text) fun _ => rfl

end Uses

end Lowering

/-! ### Trees -/

namespace Table

theorem lowerAll_eq_map (table : Table) (nodes : List Node) :
    table.lowerAll nodes = nodes.map table.lower := by
  induction nodes with
  | nil => rfl
  | cons node nodes inductionHypothesis =>
      rw [lowerAll, inductionHypothesis, List.map_cons]

theorem plain_lower (table : Table) (tree : Node) : (table.lower tree).Plain := by
  induction tree using Node.induction with
  | mk attributes children inductionHypothesis =>
      rw [lower]
      cases (table.ruleFor attributes.kind).uses attributes with
      | without _ plain _ applies => exact applies _ ▸ plain
      | around _ plain _ applies =>
          rw [applies, lowerAll_eq_map]
          cases plain with
          | block spelled plain inside =>
              refine .block spelled plain (List.forall_mem_append.mpr ⟨inside, ?_⟩)
              exact List.forall_mem_map.mpr inductionHypothesis

end Table

end Wireframe.Markup
