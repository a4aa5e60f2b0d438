import Wireframe.Proofs.Markup.Tags

/-!
Contract: elements are read back from the way they are written.

Owns:
- `Element.tokens`, the tags and characters of an element;
- `Scans`, a text that is read as some tokens whatever follows it;
- tokens as they are written, which are read back;
- the text of an element, which is read as its tokens;
- the markup of a component tree.
-/

namespace Wireframe.Markup

open Json

def charTokens (chars : List Char) : List Token :=
  chars.map Token.char

namespace Element

/-- What stands before the closing tag of a block: nothing if its body is empty. -/
def bodyEnd (depth : Nat) (body : List Element) : List Char :=
  if body.isEmpty then [] else line depth

mutual

/-- The tags and characters of an element, without the line that it starts. -/
def tokens (depth : Nat) : Element → List Token
  | .text value => charTokens value.toList
  | .void tag attributes => [.alone tag attributes]
  | .inline tag attributes value =>
      .opens tag attributes :: (charTokens value.toList ++ [.closes tag])
  | .block tag attributes body =>
      .opens tag attributes ::
        (tokensAll (depth + 1) body ++ (charTokens (bodyEnd depth body) ++ [.closes tag]))

/-- The same of elements on lines of their own. -/
def tokensAll (depth : Nat) : List Element → List Token
  | [] => []
  | element :: rest => charTokens (line depth) ++ (tokens depth element ++ tokensAll depth rest)

end

end Element

/-! ### Texts that are read as tokens -/

/-- Before any text that is read to its end, these characters are read as the tokens. -/
def Scans (markup : List Char) (tokens : List Token) : Prop :=
  ∀ more after, (∀ first, Repeats (fun _ => Reader.token) [] first more after) →
    ∀ first, Repeats (fun _ => Reader.token) [] first (markup ++ more) (tokens ++ after)

namespace Scans

variable {markup more : List Char} {read after : List Token}

theorem nil : Scans [] [] :=
  fun _ _ goesOn => goesOn

theorem one {token : Token} (notEmpty : markup ≠ [])
    (reads : ∀ rest, Yields Reader.token markup rest (some token)) : Scans markup [token] :=
  fun more _ goesOn _ => .again (reads (more ++ [])) notEmpty (goesOn false)

theorem append (here : Scans markup read) (below : Scans more after) :
    Scans (markup ++ more) (read ++ after) := by
  intro rest last goesOn first
  rw [List.append_assoc, List.append_assoc]
  exact here _ _ (below _ _ goesOn) first

theorem tokens?_eq (scans : Scans markup read) : tokens? markup = some read := by
  have stops (first : Bool) : Repeats (fun _ => Reader.token) [] first [] [] :=
    .stop (Yields.look yields_peek Yields.pure)
  rcases (scans [] [] stops true).yields_collectAll 0 with ⟨last, reads⟩
  simp only [List.append_nil] at reads
  rw [tokens?, reads]

end Scans

theorem scans_textChar (char : Char) : Scans (textChar char) [.char char] := by
  have notEmpty : textChar char ≠ [] := by
    unfold textChar
    repeat' split
    all_goals simp
  exact Scans.one notEmpty fun _ => Reader.yields_token_textChar char

theorem scans_escapeText (chars : List Char) : Scans (escapeText chars) (charTokens chars) := by
  induction chars with
  | nil => exact Scans.nil
  | cons char chars inductionHypothesis =>
      exact (scans_textChar char).append inductionHypothesis

/-- Line breaks and blanks stand for themselves. -/
theorem escapeText_line (depth : Nat) : escapeText (line depth) = line depth := by
  have onlyBlanks (count : Nat) : escapeText (List.replicate count indent).flatten =
      (List.replicate count indent).flatten := by
    induction count with
    | zero => rfl
    | succ count inductionHypothesis =>
        rw [List.replicate_succ, List.flatten_cons, escapeText, List.flatMap_append]
        exact congrArg (indent ++ ·) inductionHypothesis
  exact congrArg ('\n' :: ·) (onlyBlanks (baseDepth + depth))

theorem scans_line (depth : Nat) : Scans (line depth) (charTokens (line depth)) := by
  have scans := scans_escapeText (line depth)
  rwa [escapeText_line] at scans

section Tags

variable {tag : String} {attributes : List Attribute}

theorem scans_opens (spelled : isName tag.toList = true)
    (plain : attributes.all Attribute.isPlain = true) :
    Scans (Element.opening tag attributes ++ ['>']) [.opens tag attributes] :=
  Scans.one (List.cons_ne_nil _ _) fun _ => Reader.yields_token_opens spelled plain

theorem scans_alone (spelled : isName tag.toList = true)
    (plain : attributes.all Attribute.isPlain = true) :
    Scans (Element.opening tag attributes ++ " />".toList) [.alone tag attributes] :=
  Scans.one (List.cons_ne_nil _ _) fun _ => Reader.yields_token_alone spelled plain

theorem scans_closes (spelled : isName tag.toList = true) :
    Scans (Element.closing tag) [.closes tag] :=
  Scans.one (List.cons_ne_nil _ _) fun _ => Reader.yields_token_closes spelled

end Tags

/-! ### Tokens as they are written -/

namespace Token

def write : Token → List Char
  | .opens tag attributes => Element.opening tag attributes ++ ['>']
  | .alone tag attributes => Element.opening tag attributes ++ " />".toList
  | .closes tag => Element.closing tag
  | .char letter => textChar letter

/-- Whether the names in a tag are names. -/
def isPlain : Token → Bool
  | .opens tag attributes | .alone tag attributes =>
      isName tag.toList && attributes.all Attribute.isPlain
  | .closes tag => isName tag.toList
  | .char _ => true

theorem scans_write {token : Token} (plain : token.isPlain = true) :
    Scans token.write [token] := by
  cases token with
  | opens tag attributes =>
      obtain ⟨spelled, plain⟩ := Bool.and_eq_true_iff.mp plain
      exact scans_opens spelled plain
  | alone tag attributes =>
      obtain ⟨spelled, plain⟩ := Bool.and_eq_true_iff.mp plain
      exact scans_alone spelled plain
  | closes tag => exact scans_closes plain
  | char letter => exact scans_textChar letter

theorem scans_writeAll {tokens : List Token} (plain : tokens.all isPlain = true) :
    Scans (tokens.flatMap write) tokens := by
  induction tokens with
  | nil => exact .nil
  | cons token tokens inductionHypothesis =>
      obtain ⟨plainHere, plainBelow⟩ := Bool.and_eq_true_iff.mp plain
      exact (scans_write plainHere).append (inductionHypothesis plainBelow)

end Token

/-! ### Elements -/

namespace Element

/-- An element starts with its line, and the rest of its text is read as its tokens. -/
def ReadsAt (depth : Nat) (element : Element) : Prop :=
  ∃ markup, element.print depth = line depth ++ markup ∧ Scans markup (element.tokens depth)

theorem scans_printAll {depth : Nat} {body : List Element}
    (inside : ∀ element ∈ body, element.ReadsAt depth) :
    Scans (printAll depth body) (tokensAll depth body) := by
  induction body with
  | nil => exact Scans.nil
  | cons element body inductionHypothesis =>
      rcases List.forall_mem_cons.mp inside with ⟨⟨markup, isText, scans⟩, below⟩
      rw [printAll, tokensAll, isText, List.append_assoc]
      exact (scans_line depth).append (scans.append (inductionHypothesis below))

theorem print_block (depth : Nat) (tag : String) (attributes : List Attribute)
    (body : List Element) :
    print depth (.block tag attributes body) = line depth ++
      ((opening tag attributes ++ ['>']) ++
        (printAll (depth + 1) body ++ (bodyEnd depth body ++ closing tag))) := by
  cases body <;> simp [print, bodyEnd]

theorem scans_bodyEnd (depth : Nat) (body : List Element) :
    Scans (bodyEnd depth body) (charTokens (bodyEnd depth body)) := by
  unfold bodyEnd
  split
  · exact Scans.nil
  · exact scans_line depth

theorem Plain.readsAt {element : Element} (plain : element.Plain) (depth : Nat) :
    element.ReadsAt depth := by
  induction plain generalizing depth with
  | text value => exact ⟨_, rfl, scans_escapeText value.toList⟩
  | void spelled plain => exact ⟨_, List.append_assoc _ _ _, scans_alone spelled plain⟩
  | @«inline» tag attributes spelled plain value =>
      have scans := (scans_opens spelled plain).append
        ((scans_escapeText value.toList).append (scans_closes spelled))
      refine ⟨_, ?_, scans⟩
      simp only [print, List.append_assoc, List.singleton_append]
  | @block tag attributes body spelled plain _ inductionHypothesis =>
      have inside : Scans (printAll (depth + 1) body) (tokensAll (depth + 1) body) :=
        scans_printAll fun element isMember => inductionHypothesis element isMember (depth + 1)
      refine ⟨_, print_block depth tag attributes body, ?_⟩
      exact (scans_opens spelled plain).append
        (inside.append ((scans_bodyEnd depth body).append (scans_closes spelled)))

end Element

namespace Table

/-- After its first line break and indentation, the markup of a tree is read as the tokens
of the lowered tree. -/
theorem tokens?_render (table : Table) (tree : Node) :
    ∃ markup, (table.render tree).toList = line 0 ++ markup ∧
      tokens? markup = some ((table.lower tree).tokens 0) := by
  rcases (table.plain_lower tree).readsAt 0 with ⟨markup, isText, scans⟩
  refine ⟨markup, ?_, scans.tokens?_eq⟩
  rw [render, String.toList_ofList, renderAt, isText]

end Table

end Wireframe.Markup
