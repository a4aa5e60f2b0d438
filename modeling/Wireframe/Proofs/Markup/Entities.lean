import Mathlib.Data.List.Nodup
import Wireframe.Markup.Escape
import Wireframe.Proofs.Markup.Tags

/-!
Contract: texts behind entities.

Owns:
- `Entities`, characters with the letters of their entities, which can be told apart;
- `escape` and `decode` by some entities, each one pass over a text;
- `Escapes`, what holds of an escaping that loses nothing;
- the entities of texts and of quoted values.

Does not own: how the markup around a text is read.
-/

namespace Wireframe.Markup

/-- A character, and the letters that stand for it between an ampersand and a semicolon. -/
structure Entity where
  char : Char
  letters : List Char

/-- An entity as it is written. -/
def Entity.text (entity : Entity) : List Char :=
  '&' :: (entity.letters ++ [';'])

/-- Entities that can be told apart. The ampersand has one, and behind the ampersand of an
entity stands no character that has one. -/
structure Entities where
  all : List Entity
  ampersand : '&' ∈ all.map Entity.char
  distinctChars : (all.map Entity.char).Nodup
  distinctLetters : (all.map Entity.letters).Nodup
  ends : ∀ entity ∈ all, ';' ∉ entity.letters
  plain : ∀ entity ∈ all, ∀ other ∈ all, other.char ∉ entity.letters ++ [';']

namespace Entities

variable {entities : Entities} {entity : Entity} {char : Char} {chars before after : List Char}

/-- A character as its entity, or as it is if it has none. -/
def write (entities : Entities) (char : Char) : List Char :=
  match entities.all.find? fun entity => entity.char == char with
  | some entity => entity.text
  | none => [char]

def escape (entities : Entities) (chars : List Char) : List Char :=
  chars.flatMap entities.write

/-- The entity that a text starts with. -/
def starting? (entities : Entities) (chars : List Char) : Option Entity :=
  entities.all.find? fun entity => entity.text.isPrefixOf chars

/-- One pass from left to right, in which some characters are passed over first: an entity is
read as its character, and every other character as itself. -/
def decodeBehind (entities : Entities) : Nat → List Char → List Char
  | _, [] => []
  | passed + 1, _ :: rest => decodeBehind entities passed rest
  | 0, char :: rest =>
      match entities.starting? (char :: rest) with
      | some entity => entity.char :: decodeBehind entities (entity.letters.length + 1) rest
      | none => char :: decodeBehind entities 0 rest

def decode (entities : Entities) (chars : List Char) : List Char :=
  entities.decodeBehind 0 chars

theorem find?_of_only {α : Type} {items : List α} {test : α → Bool} {item : α}
    (isItem : item ∈ items) (passes : test item = true)
    (only : ∀ other ∈ items, test other = true → other = item) :
    items.find? test = some item := by
  cases found : items.find? test with
  | none => exact absurd passes (List.find?_eq_none.mp found item isItem)
  | some other =>
      rw [only other (List.mem_of_find?_eq_some found) (List.find?_some found)]

/-! ### What is written -/

theorem write_char (isEntity : entity ∈ entities.all) :
    entities.write entity.char = entity.text := by
  rw [write, find?_of_only isEntity (beq_self_eq_true entity.char)]
  intro other isOther sameChar
  exact List.inj_on_of_nodup_map entities.distinctChars isOther isEntity (beq_iff_eq.mp sameChar)

theorem write_cases (entities : Entities) (char : Char) :
    (∃ entity ∈ entities.all, entity.char = char ∧ entities.write char = entity.text) ∨
      (char ∉ entities.all.map Entity.char ∧ entities.write char = [char]) := by
  unfold write
  split
  · rename_i entity isFound
    have isChar := List.find?_some isFound
    exact .inl ⟨entity, List.mem_of_find?_eq_some isFound, beq_iff_eq.mp isChar, rfl⟩
  · rename_i missed
    rw [List.find?_eq_none] at missed
    refine .inr ⟨fun hasEntity => ?_, rfl⟩
    obtain ⟨entity, isEntity, isChar⟩ := List.mem_map.mp hasEntity
    exact missed entity isEntity (beq_iff_eq.mpr isChar)

/-- The entities and the other characters tell how each character is written. -/
theorem write_eq {writes : Char → List Char}
    (named : ∀ entity ∈ entities.all, writes entity.char = entity.text)
    (others : ∀ char, char ∉ entities.all.map Entity.char → writes char = [char]) :
    entities.write = writes := by
  funext char
  rcases entities.write_cases char with ⟨entity, isEntity, isChar, isText⟩ | ⟨noEntity, isSelf⟩
  · rw [isText, ← named entity isEntity, isChar]
  · rw [isSelf, others char noEntity]

theorem ampersand_not_mem_letters (isEntity : entity ∈ entities.all) :
    '&' ∉ entity.letters ++ [';'] := by
  obtain ⟨ampersand, isAmpersand, isChar⟩ := List.mem_map.mp entities.ampersand
  rw [← isChar]
  exact entities.plain entity isEntity ampersand isAmpersand

/-- Of the characters that have an entity only the ampersand is written. -/
theorem not_mem_write {delimiter : Char} (hasEntity : delimiter ∈ entities.all.map Entity.char)
    (notAmpersand : delimiter ≠ '&') (char : Char) : delimiter ∉ entities.write char := by
  rcases entities.write_cases char with ⟨entity, isEntity, -, isText⟩ | ⟨noEntity, isSelf⟩
  · rw [isText, Entity.text, List.mem_cons, not_or]
    obtain ⟨own, isOwn, rfl⟩ := List.mem_map.mp hasEntity
    exact ⟨notAmpersand, entities.plain entity isEntity own isOwn⟩
  · rw [isSelf, List.mem_singleton]
    intro same
    exact noEntity (same ▸ hasEntity)

/-- An ampersand that is written for a character starts the entity of the character. -/
theorem exists_text_of_write (splits : entities.write char = before ++ '&' :: after) :
    ∃ entity ∈ entities.all, entity.text = '&' :: after := by
  rcases entities.write_cases char with ⟨entity, isEntity, -, isText⟩ | ⟨noEntity, isSelf⟩
  · rw [isText, Entity.text] at splits
    cases before with
    | nil => exact ⟨entity, isEntity, splits⟩
    | cons first before =>
        obtain ⟨-, isBelow⟩ := List.cons.inj splits
        refine absurd ?_ (ampersand_not_mem_letters isEntity)
        rw [isBelow]
        simp
  · have isAmpersand : '&' ∈ entities.write char := by
      rw [splits]
      simp
    rw [isSelf, List.mem_singleton] at isAmpersand
    exact absurd (isAmpersand ▸ entities.ampersand) noEntity

theorem exists_prefix_of_escape (splits : entities.escape chars = before ++ '&' :: after) :
    ∃ entity ∈ entities.all, entity.text <+: '&' :: after := by
  induction chars generalizing before with
  | nil => simp [escape] at splits
  | cons char chars inductionHypothesis =>
      rw [escape, List.flatMap_cons, ← escape, List.append_eq_append_iff] at splits
      rcases splits with ⟨later, -, isBelow⟩ | ⟨here, isHere, isRest⟩
      · exact inductionHypothesis isBelow
      · -- The ampersand is the first character behind `before`: it is one that is written here,
        -- or the first that is written for the rest.
        cases here with
        | nil =>
            have isBelow : entities.escape chars = [] ++ '&' :: after := isRest.symm
            exact inductionHypothesis isBelow
        | cons first here =>
            obtain ⟨rfl, rfl⟩ := List.cons.inj isRest
            obtain ⟨entity, isEntity, isText⟩ := exists_text_of_write isHere
            refine ⟨entity, isEntity, ?_⟩
            rw [isText]
            exact List.prefix_append ('&' :: here) _

/-! ### What is read -/

theorem decodeBehind_append (entities : Entities) (passed rest : List Char) :
    entities.decodeBehind passed.length (passed ++ rest) = entities.decode rest := by
  induction passed with
  | nil => rfl
  | cons char passed inductionHypothesis =>
      rw [List.length_cons, List.cons_append, decodeBehind, inductionHypothesis]

/-- An entity ends at its first semicolon. -/
theorem eq_of_text_prefix {other : Entity} (isEntity : entity ∈ entities.all)
    (isOther : other ∈ entities.all) {rest : List Char}
    (starts : other.text <+: entity.text ++ rest) : other = entity := by
  have lettersOf : ∀ named ∈ entities.all, ∀ behind : List Char,
      (named.letters ++ ';' :: behind).takeWhile (· != ';') = named.letters := by
    intro named isNamed behind
    rw [List.takeWhile_append_of_pos]
    · simp
    · intro letter isLetter
      exact bne_iff_ne.mpr fun same => entities.ends named isNamed (same ▸ isLetter)
  obtain ⟨behind, isText⟩ := starts
  simp only [Entity.text, List.cons_append, List.append_assoc, List.nil_append,
    List.cons.injEq, true_and] at isText
  have sameLetters : other.letters = entity.letters := by
    rw [← lettersOf other isOther behind, isText, lettersOf entity isEntity rest]
  exact List.inj_on_of_nodup_map entities.distinctLetters isOther isEntity sameLetters

theorem starting?_text (isEntity : entity ∈ entities.all) (rest : List Char) :
    entities.starting? (entity.text ++ rest) = some entity := by
  apply find?_of_only isEntity
  · exact List.isPrefixOf_iff_prefix.mpr (List.prefix_append _ _)
  · intro other isOther starts
    exact eq_of_text_prefix isEntity isOther (List.isPrefixOf_iff_prefix.mp starts)

theorem starting?_of_ne (notAmpersand : char ≠ '&') (rest : List Char) :
    entities.starting? (char :: rest) = none := by
  rw [starting?, List.find?_eq_none]
  intro entity _ starts
  have isPrefix := List.isPrefixOf_iff_prefix.mp starts
  rw [Entity.text, List.cons_prefix_cons] at isPrefix
  exact notAmpersand isPrefix.1.symm

/-- What is written for a character is read as the character, whatever follows. -/
theorem decode_write_append (entities : Entities) (char : Char) (rest : List Char) :
    entities.decode (entities.write char ++ rest) = char :: entities.decode rest := by
  rcases entities.write_cases char with ⟨entity, isEntity, isChar, isText⟩ | ⟨noEntity, isSelf⟩
  · have starts := starting?_text isEntity rest
    have isLong : entity.letters.length + 1 = (entity.letters ++ [';']).length := by simp
    rw [Entity.text, List.cons_append] at starts
    rw [isText, Entity.text, List.cons_append, decode, decodeBehind, starts]
    simp only [isLong, decodeBehind_append, isChar]
  · have notAmpersand : char ≠ '&' := fun same => noEntity (same ▸ entities.ampersand)
    rw [isSelf, List.singleton_append, decode, decodeBehind, starting?_of_ne notAmpersand]
    rfl

theorem decode_escape (entities : Entities) (chars : List Char) :
    entities.decode (entities.escape chars) = chars := by
  induction chars with
  | nil => rfl
  | cons char chars inductionHypothesis =>
      rw [escape, List.flatMap_cons, ← escape, decode_write_append, inductionHypothesis]

end Entities

/-! ### Escapings that lose nothing -/

/-- An escaping by entities that loses nothing: each entity is written for its character, of
the characters with an entity only the ampersand stands in the result, every ampersand there
starts an entity, one pass over the entities gives the text back, and a text is escaped
piece by piece. -/
structure Escapes (entities : Entities) (escape : List Char → List Char) : Prop where
  writes : ∀ entity ∈ entities.all, escape [entity.char] = entity.text
  clears : ∀ chars, ∀ delimiter ∈ entities.all.map Entity.char, delimiter ≠ '&' →
    delimiter ∉ escape chars
  starts : ∀ chars before after, escape chars = before ++ '&' :: after →
    ∃ entity ∈ entities.all, entity.text <+: '&' :: after
  decodes : ∀ chars, entities.decode (escape chars) = chars
  append : ∀ left right, escape (left ++ right) = escape left ++ escape right

theorem Entities.escapes (entities : Entities) : Escapes entities entities.escape where
  writes := by
    intro entity isEntity
    rw [Entities.escape, List.flatMap_singleton, Entities.write_char isEntity]
  clears := by
    intro chars delimiter hasEntity notAmpersand isWritten
    obtain ⟨char, -, isHere⟩ := List.mem_flatMap.mp isWritten
    exact Entities.not_mem_write hasEntity notAmpersand char isHere
  starts := fun _ _ _ splits => Entities.exists_prefix_of_escape splits
  decodes := entities.decode_escape
  append := fun _ _ => List.flatMap_append

/-- An escaping that writes the entities for their characters, and every other character as it
is, loses nothing. -/
theorem Entities.escapes_of {entities : Entities} {escape : List Char → List Char}
    {writes : Char → List Char} (isPass : ∀ chars, escape chars = chars.flatMap writes)
    (named : ∀ entity ∈ entities.all, writes entity.char = entity.text)
    (others : ∀ char, char ∉ entities.all.map Entity.char → writes char = [char]) :
    Escapes entities escape := by
  have isEscape : entities.escape = escape := by
    funext chars
    rw [isPass, Entities.escape, Entities.write_eq named others]
  rw [← isEscape]
  exact entities.escapes

theorem Escapes.injective {entities : Entities} {escape : List Char → List Char}
    (escapes : Escapes entities escape) : Function.Injective escape :=
  Function.LeftInverse.injective escapes.decodes

/-! ### Texts and quoted values -/

/-- The entities of a text between tags. -/
def textEntities : Entities where
  all := [⟨'&', "amp".toList⟩, ⟨'<', "lt".toList⟩, ⟨'>', "gt".toList⟩,
    ⟨'\x7b', "#123".toList⟩, ⟨'\x7d', "#125".toList⟩]
  ampersand := by decide
  distinctChars := by decide
  distinctLetters := by decide
  ends := by decide
  plain := by decide

/-- The entities of a value between double quotes. -/
def quotedEntities : Entities where
  all := [⟨'&', "amp".toList⟩, ⟨'"', "quot".toList⟩]
  ampersand := by decide
  distinctChars := by decide
  distinctLetters := by decide
  ends := by decide
  plain := by decide

theorem escapes_escapeText : Escapes textEntities escapeText := by
  apply Entities.escapes_of fun _ => rfl
  · decide
  · intro char noEntity
    simp only [textEntities, List.map_cons, List.map_nil, List.mem_cons, List.not_mem_nil,
      or_false, not_or] at noEntity
    simp only [textChar, noEntity, if_false]

theorem escapes_escapeAttribute : Escapes quotedEntities escapeAttribute := by
  apply Entities.escapes_of Reader.escapeAttribute_eq
  · decide
  · intro char noEntity
    simp only [quotedEntities, List.map_cons, List.map_nil, List.mem_cons, List.not_mem_nil,
      or_false, not_or] at noEntity
    simp only [Reader.attributeChar, noEntity, if_false]

/-- The second replacement leaves what the first makes of an ampersand as it is. -/
theorem escapeAttribute_one_pass (chars : List Char) :
    escapeAttribute chars = chars.flatMap fun char =>
      if char = '&' then replaceChar '&' "&amp;".toList [char]
      else replaceChar '"' "&quot;".toList [char] := by
  rw [Reader.escapeAttribute_eq]
  refine List.flatMap_congr fun char _ => ?_
  unfold Reader.attributeChar replaceChar
  by_cases isAmpersand : char = '&'
  · rw [if_pos isAmpersand, if_pos isAmpersand, List.flatMap_singleton, if_pos isAmpersand]
  · rw [if_neg isAmpersand, if_neg isAmpersand, List.flatMap_singleton]

/-- In the other order the quotes' replacements would be replaced once more. -/
example : replaceChar '&' "&amp;".toList (replaceChar '"' "&quot;".toList ['"']) =
    "&amp;quot;".toList := by
  decide

/-- Texts between tags and values between quotes lose nothing by their escaping and keep none
of their delimiters. -/
theorem escaping_lossless :
    (Escapes textEntities escapeText ∧ Function.Injective escapeText ∧
        ∀ chars, '<' ∉ escapeText chars ∧ '>' ∉ escapeText chars ∧
          '\x7b' ∉ escapeText chars ∧ '\x7d' ∉ escapeText chars) ∧
      (Escapes quotedEntities escapeAttribute ∧ Function.Injective escapeAttribute ∧
        ∀ chars, '"' ∉ escapeAttribute chars) ∧
      ∀ chars, escapeAttribute chars = chars.flatMap fun char =>
        if char = '&' then replaceChar '&' "&amp;".toList [char]
        else replaceChar '"' "&quot;".toList [char] := by
  have text := escapes_escapeText
  have quoted := escapes_escapeAttribute
  refine ⟨⟨text, text.injective, fun chars => ⟨?_, ?_, ?_, ?_⟩⟩,
    ⟨quoted, quoted.injective, fun chars => ?_⟩, escapeAttribute_one_pass⟩
  · exact text.clears chars '<' (by decide) (by decide)
  · exact text.clears chars '>' (by decide) (by decide)
  · exact text.clears chars '\x7b' (by decide) (by decide)
  · exact text.clears chars '\x7d' (by decide) (by decide)
  · exact quoted.clears chars '"' (by decide) (by decide)

/-- A quoted value that holds an entity already keeps it apart from those that are written. -/
theorem escaping_lossless_entity :
    escapeAttribute "\"&quot;\"".toList = "&quot;&amp;quot;&quot;".toList ∧
      quotedEntities.decode (escapeAttribute "\"&quot;\"".toList) = "\"&quot;\"".toList ∧
      ∃ entity ∈ quotedEntities.all, entity.text <+: "&amp;quot;&quot;".toList := by
  obtain ⟨-, ⟨escapes, -, -⟩, -⟩ := escaping_lossless
  refine ⟨by decide, escapes.decodes _, ?_⟩
  exact escapes.starts "\"&quot;\"".toList "&quot;".toList "amp;quot;&quot;".toList (by decide)

end Wireframe.Markup
