import Wireframe.Proofs.Markup.Elements
import Wireframe.Proofs.Markup.Locality

/-!
Contract: the markup of a tree is one well-formed element.

Owns:
- the nesting of the tags of an element, and their number;
- `Table.reached`, the nodes that become elements.
-/

namespace Wireframe.Markup

/-! ### Nesting -/

/-- Inside an open element, the tokens close exactly what they open. -/
def Balanced (tokens : List Token) : Prop :=
  ∀ tag tags rest, closesAll (tag :: tags) (tokens ++ rest) = closesAll (tag :: tags) rest

namespace Balanced

variable {left right inside : List Token}

theorem nil : Balanced [] :=
  fun _ _ _ => rfl

theorem append (first : Balanced left) (second : Balanced right) : Balanced (left ++ right) := by
  intro tag tags rest
  rw [List.append_assoc, first, second]

theorem chars (chars : List Char) : Balanced (charTokens chars) := by
  intro tag tags rest
  induction chars with
  | nil => rfl
  | cons char chars inductionHypothesis => exact inductionHypothesis

theorem element (balanced : Balanced inside) (tag : String) (attributes : List Attribute) :
    Balanced (.opens tag attributes :: (inside ++ [.closes tag])) := by
  intro outer tags rest
  rw [List.cons_append, List.append_assoc]
  calc closesAll (outer :: tags) (.opens tag attributes :: (inside ++ ([.closes tag] ++ rest)))
      = closesAll (tag :: outer :: tags) (inside ++ ([.closes tag] ++ rest)) := rfl
    _ = closesAll (tag :: outer :: tags) ([.closes tag] ++ rest) := balanced _ _ _
    _ = (tag == tag && closesAll (outer :: tags) rest) := rfl
    _ = closesAll (outer :: tags) rest := by rw [beq_self_eq_true, Bool.true_and]

theorem isElement (balanced : Balanced inside) (tag : String) (attributes : List Attribute) :
    isElement (.opens tag attributes :: (inside ++ [.closes tag])) = true := by
  calc closesAll [tag] (inside ++ [.closes tag])
      = closesAll [tag] [.closes tag] := balanced _ _ _
    _ = (tag == tag && closesAll [] []) := rfl
    _ = true := by rw [beq_self_eq_true]; rfl

end Balanced

namespace Element

theorem balanced_tokensAll {depth : Nat} {body : List Element}
    (inside : ∀ element ∈ body, Balanced (element.tokens depth)) :
    Balanced (tokensAll depth body) := by
  induction body with
  | nil => exact Balanced.nil
  | cons element body inductionHypothesis =>
      rcases List.forall_mem_cons.mp inside with ⟨here, below⟩
      rw [tokensAll]
      exact (Balanced.chars _).append (here.append (inductionHypothesis below))

theorem tokens_block (depth : Nat) (tag : String) (attributes : List Attribute)
    (body : List Element) :
    tokens depth (.block tag attributes body) = .opens tag attributes ::
      ((tokensAll (depth + 1) body ++ charTokens (bodyEnd depth body)) ++ [.closes tag]) := by
  rw [tokens, List.append_assoc]

theorem Plain.balanced {element : Element} (plain : element.Plain) (depth : Nat) :
    Balanced (element.tokens depth) := by
  induction plain generalizing depth with
  | text value => exact Balanced.chars value.toList
  | void => exact fun _ _ _ => rfl
  | «inline» _ _ value => exact (Balanced.chars value.toList).element _ _
  | block _ _ _ inductionHypothesis =>
      have inside := balanced_tokensAll fun element isMember =>
        inductionHypothesis element isMember (depth + 1)
      rw [tokens_block]
      exact (inside.append (Balanced.chars _)).element _ _

/-- All but a text is one element. -/
theorem Plain.isElement_tokens {element : Element} (plain : element.Plain)
    (notText : 0 < element.count) (depth : Nat) : isElement (element.tokens depth) = true := by
  cases plain with
  | text value => exact absurd notText (Nat.lt_irrefl 0)
  | void => rfl
  | «inline» _ _ value => exact (Balanced.chars value.toList).isElement _ _
  | block _ _ inside =>
      have balanced := balanced_tokensAll fun element isMember =>
        (inside element isMember).balanced (depth + 1)
      rw [tokens_block]
      exact (balanced.append (Balanced.chars _)).isElement _ _

/-! ### The number of elements -/

theorem countP_charTokens (chars : List Char) :
    (charTokens chars).countP Token.starts = 0 := by
  simp [charTokens, Token.starts]

theorem countP_tokensAll {depth : Nat} {body : List Element}
    (inside : ∀ element ∈ body, (element.tokens depth).countP Token.starts = element.count) :
    (tokensAll depth body).countP Token.starts = countAll body := by
  induction body with
  | nil => rfl
  | cons element body inductionHypothesis =>
      rcases List.forall_mem_cons.mp inside with ⟨here, below⟩
      rw [tokensAll, List.countP_append, List.countP_append, countP_charTokens, here,
        inductionHypothesis below, countAll, Nat.zero_add]

theorem Plain.countP_tokens {element : Element} (plain : element.Plain) (depth : Nat) :
    (element.tokens depth).countP Token.starts = element.count := by
  induction plain generalizing depth with
  | text value => exact countP_charTokens value.toList
  | void => rfl
  | «inline» _ _ value =>
      simp only [tokens, List.countP_cons, List.countP_append, countP_charTokens, count]
      rfl
  | @block tag attributes body _ _ _ inductionHypothesis =>
      have inside := countP_tokensAll fun element isMember =>
        inductionHypothesis element isMember (depth + 1)
      simp only [tokens_block, List.countP_cons, List.countP_append, countP_charTokens, inside,
        count, List.countP_nil, Token.starts]
      simp [Nat.add_comm]

end Element

namespace Table

variable {table : Table}

mutual

/-- The nodes in pre-order, without those below a node whose rule ignores children. -/
def reached (table : Table) : Node → List Node
  | .mk attributes children =>
      .mk attributes children ::
        if (table.ruleFor attributes.kind).keepsChildren then reachedAll table children else []

def reachedAll (table : Table) : List Node → List Node
  | [] => []
  | node :: rest => reached table node ++ reachedAll table rest

end

theorem mem_reachedAll {inside : Node} {nodes : List Node} :
    inside ∈ table.reachedAll nodes ↔ ∃ node ∈ nodes, inside ∈ table.reached node := by
  induction nodes with
  | nil => simp [reachedAll]
  | cons node nodes inductionHypothesis => simp [reachedAll, inductionHypothesis]

/-- They are the nodes at the paths on which every node shows its children. -/
theorem mem_reached_iff {tree inside : Node} :
    inside ∈ table.reached tree ↔
      ∃ path, tree.at? path = some inside ∧ table.ShowsAt tree path := by
  induction tree using Node.induction with
  | mk attributes children inductionHypothesis =>
      rw [reached, List.mem_cons]
      constructor
      · rintro (rfl | below)
        · exact ⟨[], Node.at?_nil _, showsAt_nil _ _⟩
        · split at below
          · rename_i keeps
            rcases mem_reachedAll.mp below with ⟨child, isChild, below⟩
            rcases (inductionHypothesis child isChild).mp below with ⟨path, present, shows⟩
            rcases List.append_of_mem isChild with ⟨left, right, rfl⟩
            refine ⟨left.length :: path, ?_, showsAt_cons.mpr ⟨keeps, shows⟩⟩
            simpa [Node.at?_cons] using present
          · exact absurd below List.not_mem_nil
      · rintro ⟨path, present, shows⟩
        cases path with
        | nil =>
            rw [Node.at?_nil, Option.some.injEq] at present
            exact Or.inl present.symm
        | cons index path =>
            rcases Node.exists_of_at?_cons present with ⟨left, child, right, rfl, rfl, below⟩
            rcases showsAt_cons.mp shows with ⟨keeps, showsBelow⟩
            have isChild : child ∈ left ++ child :: right := by simp
            rw [if_pos keeps, mem_reachedAll]
            exact Or.inr ⟨child, isChild,
              (inductionHypothesis child isChild).mpr ⟨path, below, showsBelow⟩⟩

/-- Whether a node becomes a hero, which has a heading of its own. -/
def isHero (table : Table) (node : Node) : Bool :=
  table.ruleFor node.kind = .hero

theorem headings_ruleFor (table : Table) (attributes : Attributes) (children : List Node) :
    (table.ruleFor attributes.kind).headings =
      if table.isHero (.mk attributes children) then 1 else 0 := by
  change _ = if decide (table.ruleFor attributes.kind = .hero) then 1 else 0
  cases table.ruleFor attributes.kind <;> rfl

theorem countAll_lowerAll {nodes : List Node}
    (counts : ∀ node ∈ nodes, (table.lower node).count =
      (table.reached node).length + (table.reached node).countP table.isHero) :
    Element.countAll (table.lowerAll nodes) =
      (table.reachedAll nodes).length + (table.reachedAll nodes).countP table.isHero := by
  induction nodes with
  | nil => rfl
  | cons node nodes inductionHypothesis =>
      rcases List.forall_mem_cons.mp counts with ⟨here, below⟩
      rw [lowerAll, Element.countAll, reachedAll, here, inductionHypothesis below,
        List.length_append, List.countP_append]
      omega

/-- Every reached node becomes an element, and a hero one more. -/
theorem count_lower (table : Table) (tree : Node) :
    (table.lower tree).count =
      (table.reached tree).length + (table.reached tree).countP table.isHero := by
  induction tree using Node.induction with
  | mk attributes children inductionHypothesis =>
      have own := table.headings_ruleFor attributes children
      rw [lower, reached, List.length_cons, List.countP_cons, ← own]
      cases (table.ruleFor attributes.kind).uses attributes with
      | around keeps _ counts applies =>
          rw [applies, if_pos keeps, Element.count, Element.countAll_append, counts,
            countAll_lowerAll inductionHypothesis]
          omega
      | without ignores _ counts applies =>
          rw [applies, counts, if_neg (by simp [ignores]), Lowering.headings_of_ignores ignores]
          rfl

/-! ### Markup -/

/-- The markup of a tree, after its first line break and indentation, is one element whose
tags are closed in the order of their nesting. It is read with every text of the tree as it
was, and has one element for each reached node and one more for each hero among them. -/
theorem render_one_element (table : Table) (tree : Node) :
    ∃ markup tokens, (table.render tree).toList = line 0 ++ markup ∧
      tokens? markup = some tokens ∧ tokens = (table.lower tree).tokens 0 ∧
      isElement tokens = true ∧
      tokens.countP Token.starts =
        (table.reached tree).length + (table.reached tree).countP table.isHero := by
  have plain := table.plain_lower tree
  have positive : 0 < (table.lower tree).count := by
    cases tree
    rw [count_lower, reached, List.length_cons]
    omega
  rcases table.tokens?_render tree with ⟨markup, isText, isRead⟩
  refine ⟨markup, _, isText, isRead, rfl, plain.isElement_tokens positive 0, ?_⟩
  rw [plain.countP_tokens, count_lower]

end Table

end Wireframe.Markup
