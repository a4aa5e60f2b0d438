import Wireframe.Proofs.Json.RoundTrip
import Wireframe.Proofs.Markup.Reading

/-!
Contract: tags and texts are read back from the way they are written.

Owns:
- characters of texts and of quoted values;
- numbers, style properties and attributes;
- whole tags.

Does not own: elements with others inside.
-/

namespace Wireframe.Markup

open Json Number

namespace Reader

open Scanner

variable {rest : List Char}

/-! ### Characters -/

theorem yields_entity {letters : List Char} {char : Char} (named : named? letters = some char)
    (noEnd : letters.all (· != ';') = true) :
    Yields entity (letters ++ [';']) rest char := by
  refine Yields.bind (yields_eatWhile (List.all_eq_true.mp noEnd) (stops_cons.mpr rfl)) ?_
  refine Yields.last (yields_word [';']) ?_
  rw [named]
  exact Yields.pure

/-- A character of a text is read as itself. -/
theorem yields_token_textChar (char : Char) :
    Yields token (textChar char) rest (some (.char char)) := by
  have named (letters : List Char) (isNamed : named? letters = some char)
      (noEnd : letters.all (· != ';') = true) :
      Yields token ('&' :: (letters ++ [';'])) rest (some (.char char)) := by
    refine Yields.look yields_peek ?_
    refine Yields.eat ?_
    exact Yields.map (yields_entity isNamed noEnd) rfl
  unfold textChar
  split
  · rename_i isAmpersand
    exact named "amp".toList (isAmpersand ▸ rfl) rfl
  split
  · rename_i isLess
    exact named "lt".toList (isLess ▸ rfl) rfl
  split
  · rename_i isGreater
    exact named "gt".toList (isGreater ▸ rfl) rfl
  split
  · rename_i isOpening
    exact named "#123".toList (isOpening ▸ rfl) rfl
  split
  · rename_i isClosing
    exact named "#125".toList (isClosing ▸ rfl) rfl
  · rename_i notAmpersand notLess notGreater notOpening notClosing
    refine Yields.look yields_peek ?_
    refine Yields.eat ?_
    rw [if_neg notLess, if_neg notAmpersand, if_neg (by simp [notGreater, notOpening, notClosing])]
    exact Yields.pure

/-- A character of a quoted value as it is written. -/
def attributeChar (char : Char) : List Char :=
  if char = '&' then "&amp;".toList
  else if char = '"' then "&quot;".toList
  else [char]

/-- The ampersands of the quotes' replacements stand as they are. -/
theorem escapeAttribute_eq (chars : List Char) :
    escapeAttribute chars = chars.flatMap attributeChar := by
  unfold escapeAttribute replaceChar
  rw [List.flatMap_assoc]
  refine List.flatMap_congr fun char _ => ?_
  unfold attributeChar
  by_cases isAmpersand : char = '&'
  · rw [if_pos isAmpersand, if_pos isAmpersand]
    rfl
  · rw [if_neg isAmpersand, if_neg isAmpersand, List.flatMap_singleton]

theorem yields_quotedChar (char : Char) :
    Yields quotedChar (attributeChar char) rest (some char) := by
  have named (letters : List Char) (isNamed : named? letters = some char)
      (noEnd : letters.all (· != ';') = true) :
      Yields quotedChar ('&' :: (letters ++ [';'])) rest (some char) := by
    refine Yields.look yields_peek ?_
    refine Yields.eat ?_
    exact Yields.map (yields_entity isNamed noEnd) rfl
  unfold attributeChar
  split
  · rename_i isAmpersand
    exact named "amp".toList (isAmpersand ▸ rfl) rfl
  split
  · rename_i isQuote
    exact named "quot".toList (isQuote ▸ rfl) rfl
  · rename_i notAmpersand notQuote
    refine Yields.look yields_peek ?_
    refine Yields.eat ?_
    rw [if_neg notQuote, if_neg notAmpersand]
    exact Yields.pure

theorem yields_quotedChar_end : Yields quotedChar ['"'] rest none :=
  Yields.look yields_peek (Yields.eat Yields.pure)

/-! ### Repeated steps -/

/-- A step that reads each of some values, whatever follows, reads one after another. -/
theorem repeats_flatMap {α : Type} {step : Bool → Scanner Failure (Option α)}
    {write : α → List Char} {values : List α} {after : List Char}
    (reads : ∀ value ∈ values, write value ≠ [] ∧
      ∀ first more, Yields (step first) (write value) more (some value))
    (stops : ∀ first, Yields (step first) after rest none) (first : Bool) :
    Repeats step rest first (values.flatMap write ++ after) values := by
  induction values generalizing first with
  | nil => exact .stop (stops first)
  | cons value values inductionHypothesis =>
      rcases List.forall_mem_cons.mp reads with ⟨⟨notEmpty, readsHere⟩, readsBelow⟩
      rw [List.flatMap_cons, List.append_assoc]
      exact .again (readsHere first _) notEmpty (inductionHypothesis readsBelow false)

theorem yields_quotedChars (chars : List Char) :
    Yields (collectAll fun _ => quotedChar) (escapeAttribute chars ++ ['"']) rest chars := by
  have notEmpty (char : Char) : attributeChar char ≠ [] := by
    unfold attributeChar
    repeat' split
    all_goals simp
  rw [escapeAttribute_eq]
  exact (repeats_flatMap (fun char _ => ⟨notEmpty char, fun _ _ => yields_quotedChar char⟩)
    (fun _ => yields_quotedChar_end) true).yields_collectAll

/-! ### Names -/

theorem all_isNameChar {chars : List Char} (spelled : isName chars = true) :
    ∀ char ∈ chars, isNameChar char = true := by
  cases chars with
  | nil => simp
  | cons char chars =>
      rw [isName, Bool.and_eq_true, List.all_eq_true] at spelled
      refine List.forall_mem_cons.mpr ⟨?_, spelled.2⟩
      simp [isNameChar, Char.isAlphanum, spelled.1]

theorem yields_name {key : String} (spelled : isName key.toList = true)
    (stops : Stops isNameChar rest) : Yields name key.toList rest key := by
  refine Yields.last (yields_eatWhile (all_isNameChar spelled) stops) ?_
  rw [if_pos spelled, String.ofList_toList]
  exact Yields.pure

/-- A name starts with a letter. -/
theorem exists_cons_of_isName {chars : List Char} (spelled : isName chars = true) :
    ∃ char more, chars = char :: more ∧ char.isAlpha = true := by
  cases chars with
  | nil => exact absurd spelled (by decide)
  | cons char chars =>
      rw [isName, Bool.and_eq_true] at spelled
      exact ⟨char, chars, rfl, spelled.1⟩

theorem ne_of_isAlpha {char other : Char} (isAlpha : char.isAlpha = true)
    (notAlpha : other.isAlpha = false) : char ≠ other := by
  rintro rfl
  exact absurd (isAlpha.symm.trans notAlpha) (by decide)

theorem isBlank_eq_false_of_isAlpha {char : Char} (isAlpha : char.isAlpha = true) :
    isBlank char = false := by
  simp [isBlank, ne_of_isAlpha isAlpha]

theorem eq_of_isBlank {char : Char} (blank : isBlank char = true) :
    char = ' ' ∨ char = '\n' ∨ char = '\t' ∨ char = '\r' := by
  simpa only [isBlank, Bool.or_eq_true, decide_eq_true_eq, or_assoc] using blank

theorem blanks_single : Blanks [' '] :=
  List.forall_mem_singleton.mpr rfl

/-! ### Style properties -/

theorem yields_minus (negative : Bool) (noMinus : rest.head? ≠ some '-') :
    Yields minus (if negative then ['-'] else []) rest negative := by
  cases negative with
  | true => exact Yields.look yields_peek (Yields.eat Yields.pure)
  | false =>
      refine Yields.look yields_peek ?_
      rw [if_neg (by simpa using noMinus)]
      exact Yields.pure

theorem write_markup (number : Binary64) :
    Spelling.markup.write number = (if number.negative then ['-'] else []) ++
      Spelling.positional [] (shortest .up number).digits (shortest .up number).exponent := by
  unfold Spelling.write
  cases number.negative <;> rfl

/-- The first character of a number. -/
theorem exists_cons_write (number : Binary64) :
    ∃ char more, Spelling.markup.write number = char :: more ∧
      (char = '-' ∨ char.isDigit = true) := by
  rcases exists_parts .up number with ⟨whole, fraction, parts, isText⟩
  rcases List.exists_cons_of_ne_nil parts.isWhole.notEmpty with ⟨digit, more, rfl⟩
  rw [write_markup, isText]
  cases number.negative with
  | true => exact ⟨'-', _, rfl, Or.inl rfl⟩
  | false => exact ⟨digit, _, rfl, Or.inr (parts.isWhole.digits digit List.mem_cons_self)⟩

/-- A number is read back as it was, the sign of zero included. -/
theorem yields_number (value : Binary64) (ends : NumberEnds rest) :
    Yields number (Spelling.markup.write value) rest value := by
  rcases exists_parts .up value with ⟨whole, fraction, parts, isText⟩
  have isFraction : (if fraction = [] then [] else '.' :: fraction) = pointChars fraction := by
    cases fraction <;> rfl
  have noMinus : (whole ++ pointChars fraction ++ rest).head? ≠ some '-' := by
    rcases List.exists_cons_of_ne_nil parts.isWhole.notEmpty with ⟨digit, more, rfl⟩
    have isDigit := parts.isWhole.digits digit List.mem_cons_self
    simp only [List.cons_append, List.head?_cons, ne_eq, Option.some.injEq]
    rintro rfl
    exact absurd isDigit (by decide)
  have wholeEnds : Stops Char.isDigit (pointChars fraction ++ rest) := by
    cases fraction with
    | nil => exact ends.digit
    | cons digit fraction => exact stops_cons.mpr rfl
  rcases yields_pointChars parts.digits ends.digit ends.point with ⟨read, isRead, readsFraction⟩
  rw [write_markup, isText, isFraction]
  refine Yields.bind (yields_minus value.negative noMinus) ?_
  refine Yields.bind (yields_wholeDigits parts.isWhole wholeEnds) ?_
  refine Yields.last readsFraction ?_
  simp only [isRead,
    ofDecimal?_shortest (digits_append.mpr ⟨parts.isWhole.digits, parts.digits⟩) parts.same]
  exact Yields.pure

/-- The first character of a style value. -/
theorem exists_cons_print (value : StyleValue) :
    ∃ char more, value.print = char :: more ∧ isBlank char = false := by
  cases value with
  | text value => exact ⟨'"', _, rfl, rfl⟩
  | number value =>
      rcases exists_cons_write value with ⟨char, more, isText, isMinus | isDigit⟩
      · exact ⟨char, more, isText, isMinus ▸ rfl⟩
      · have notBlank : isBlank char = false := by
          refine Bool.eq_false_iff.mpr fun blank => ?_
          rcases eq_of_isBlank blank with rfl | rfl | rfl | rfl
          all_goals exact absurd isDigit (by decide)
        exact ⟨char, more, isText, notBlank⟩

theorem yields_styleValue (value : StyleValue) (ends : NumberEnds rest) :
    Yields styleValue value.print rest value := by
  cases value with
  | text value =>
      refine Yields.look yields_peek ?_
      refine Yields.eat ?_
      exact Yields.map (yields_string value rest) rfl
  | number value =>
      refine Yields.look yields_peek ?_
      rcases exists_cons_write value with ⟨char, more, isText, starts⟩
      have notQuote : char ≠ '"' := by
        rintro rfl
        exact absurd starts (by decide)
      have isValue : (StyleValue.number value).print = Spelling.markup.write value := rfl
      rw [isValue, if_neg (by simp [isText, notQuote])]
      exact Yields.map (yields_number value ends) rfl

theorem yields_keyedValue {value : String × StyleValue} (spelled : isName value.1.toList = true)
    (ends : NumberEnds rest) :
    Yields keyedValue (Attribute.printProperty value) rest value := by
  have isText : Attribute.printProperty value =
      value.1.toList ++ (([] ++ [':']) ++ ([' '] ++ value.2.print)) := by
    simp [Attribute.printProperty]
  rcases exists_cons_print value.2 with ⟨char, text, isValue, notBlank⟩
  rw [isText]
  refine Yields.bind (yields_name spelled (stops_cons.mpr rfl)) ?_
  refine Yields.bind (yields_colon blanks_nil) ?_
  refine Yields.bind (yields_peekToken blanks_single ?_) ?_
  · rw [isValue]
    exact stops_cons.mpr notBlank
  · exact Yields.map (yields_styleValue value.2 ends) rfl

/-- A property of a style is read wherever it stands among others. -/
theorem part_property {value : String × StyleValue} (spelled : isName value.1.toList = true) :
    Part property (Attribute.printProperty value) value := by
  rcases exists_cons_of_isName spelled with ⟨letter, more, isKey, isAlpha⟩
  have isText :
      Attribute.printProperty value = letter :: (more ++ ':' :: ' ' :: value.2.print) := by
    simp [Attribute.printProperty, isKey]
  have starts (after : List Char) : Stops isBlank (Attribute.printProperty value ++ after) := by
    rw [isText]
    exact stops_cons.mpr (isBlank_eq_false_of_isAlpha isAlpha)
  refine ⟨by simp [isText], fun first blanks after areBlank ends => ?_⟩
  have member := Yields.map (yields_keyedValue spelled ends) (rfl : some value = _)
  cases first with
  | true =>
      refine Yields.bind (yields_peekToken areBlank (starts after)) ?_
      rw [if_neg (by simp [isText, ne_of_isAlpha isAlpha (by decide : '\x7d'.isAlpha = false)])]
      exact member
  | false =>
      have comma : Yields (propertySeparator false) (leading blanks false)
          (Attribute.printProperty value ++ after) () :=
        Yields.bind (yields_word [',']) (Yields.map (yields_peekToken areBlank (starts after)) rfl)
      refine Yields.look (yields_peekToken blanks_nil (stops_cons.mpr rfl)) ?_
      rw [if_neg (by simp [leading])]
      exact Yields.bind comma member

/-- The properties of a style between the braces. -/
theorem yields_properties {properties : List (String × StyleValue)}
    (spelled : ∀ value ∈ properties, isName value.1.toList = true) :
    Yields (collectAll property)
      ([' '] ++ separated [',', ' '] (properties.map Attribute.printProperty) ++ [' '])
      ('\x7d' :: rest) properties := by
  have stops (first : Bool) {blanks : List Char} (areBlank : Blanks blanks) :
      Yields (property first) blanks ('\x7d' :: rest) none :=
    Yields.last (yields_peekToken areBlank (stops_cons.mpr rfl)) Yields.pure
  have ends : NumberEnds ([' '] ++ '\x7d' :: rest) := numberEnds_cons rfl
  cases properties with
  | nil =>
      have areBlank : Blanks ([' '] ++ separated [',', ' '] [] ++ [' ']) := by
        simp [Blanks, isBlank, separated]
      exact (Repeats.stop (stops true areBlank)).yields_collectAll
  | cons value properties =>
      rcases List.forall_mem_cons.mp spelled with ⟨spelledHere, spelledBelow⟩
      have parts : List.Forall₂ (Part property)
          (properties.map Attribute.printProperty) properties :=
        List.forall₂_map_left_iff.mpr
          (List.forall₂_same.mpr fun value isMember => part_property (spelledBelow value isMember))
      exact (repeats_separated blanks_single ends (stops false blanks_single)
        (part_property spelledHere) parts).yields_collectAll

/-! ### Attributes and tags -/

theorem print_style (properties : List (String × StyleValue)) :
    (Attribute.style properties).print = [' '] ++ ("style".toList ++ (['='] ++
      (['\x7b', '\x7b'] ++
        (([' '] ++ separated [',', ' '] (properties.map Attribute.printProperty) ++ [' ']) ++
          (['\x7d', '\x7d'] ++ []))))) := by
  have opening : " style=\x7b\x7b ".toList =
      [' '] ++ ("style".toList ++ (['='] ++ (['\x7b', '\x7b'] ++ [' ']))) := by
    decide
  have closing : " \x7d\x7d".toList = [' '] ++ ['\x7d', '\x7d'] := by
    decide
  unfold Attribute.print
  rw [opening, closing]
  simp only [List.append_assoc, List.append_nil]

theorem yields_tagAttribute {written : Attribute} (plain : written.isPlain = true) :
    Yields tagAttribute written.print rest (some written) := by
  have ofParts (key : String) (text : List Char) (spelled : isName key.toList = true)
      (value : Yields (attributeValue key) text rest written) :
      Yields tagAttribute ([' '] ++ (key.toList ++ (['='] ++ text))) rest (some written) := by
    rcases exists_cons_of_isName spelled with ⟨letter, more, isKey, isAlpha⟩
    refine Yields.bind (yields_peekToken blanks_single ?_) ?_
    · rw [isKey]
      exact stops_cons.mpr (isBlank_eq_false_of_isAlpha isAlpha)
    · rw [if_neg (by simp [isKey, ne_of_isAlpha isAlpha])]
      refine Yields.bind (yields_name spelled (stops_cons.mpr rfl)) ?_
      refine Yields.bind (yields_word ['=']) ?_
      exact Yields.map value rfl
  cases written with
  | quoted key value =>
      refine ofParts key ('"' :: (escapeAttribute value.toList ++ ['"'])) plain ?_
      refine Yields.look yields_peek ?_
      refine Yields.eat ?_
      refine Yields.map (yields_quotedChars value.toList) ?_
      rw [String.ofList_toList]
  | style properties =>
      have spelled : ∀ value ∈ properties, isName value.1.toList = true := by
        simpa [Attribute.isPlain] using plain
      -- The blanks next to the braces are read with the properties.
      have value : Yields (attributeValue "style")
          (['\x7b', '\x7b'] ++
            (([' '] ++ separated [',', ' '] (properties.map Attribute.printProperty) ++ [' ']) ++
              (['\x7d', '\x7d'] ++ []))) rest (.style properties) := by
        refine Yields.look yields_peek ?_
        rw [if_neg (by simp), if_pos rfl]
        refine Yields.bind (yields_word ['\x7b', '\x7b']) ?_
        refine Yields.bind (yields_properties spelled) ?_
        exact Yields.bind (yields_word ['\x7d', '\x7d']) Yields.pure
      rw [print_style]
      exact ofParts "style" _ (by decide) value

theorem attribute_print_ne_nil (written : Attribute) : written.print ≠ [] := by
  cases written with
  | quoted key value => exact List.cons_ne_nil _ _
  | style properties =>
      rw [print_style]
      exact List.cons_ne_nil _ _

/-- The mark at the end of a tag that starts an element. -/
def IsTagEnd (mark : Char) : Prop :=
  mark = '/' ∨ mark = '>'

/-- Nothing of a name comes after the name of a tag. -/
theorem stops_attributes (attributes : List Attribute) {ending : List Char} {mark : Char}
    (blanks : Blanks ending) (ends : IsTagEnd mark) :
    Stops isNameChar (attributes.flatMap Attribute.print ++ ending ++ mark :: rest) := by
  cases attributes with
  | nil =>
      cases ending with
      | nil =>
          rcases ends with rfl | rfl
          all_goals exact stops_cons.mpr rfl
      | cons blank ending =>
          rcases eq_of_isBlank (blanks blank List.mem_cons_self) with rfl | rfl | rfl | rfl
          all_goals exact stops_cons.mpr rfl
  | cons first attributes =>
      cases first with
      | quoted key value => exact stops_cons.mpr rfl
      | style properties =>
          rw [List.flatMap_cons, print_style]
          exact stops_cons.mpr rfl

theorem yields_attributes {attributes : List Attribute} {ending : List Char} {mark : Char}
    (plain : attributes.all Attribute.isPlain = true) (blanks : Blanks ending)
    (ends : IsTagEnd mark) :
    Yields (collectAll fun _ => tagAttribute) (attributes.flatMap Attribute.print ++ ending)
      (mark :: rest) attributes := by
  have notBlank : Stops isBlank (mark :: rest) := by
    rcases ends with rfl | rfl
    all_goals exact stops_cons.mpr rfl
  have stops : Yields tagAttribute ending (mark :: rest) none := by
    refine Yields.last (yields_peekToken blanks notBlank) ?_
    rw [if_pos (by simpa [IsTagEnd] using ends)]
    exact Yields.pure
  rw [List.all_eq_true] at plain
  have repeats := repeats_flatMap (fun written isMember => ⟨attribute_print_ne_nil written,
    fun _ _ => yields_tagAttribute (plain written isMember)⟩) (fun _ => stops) true
  exact repeats.yields_collectAll

section Tags

variable {tag : String} {attributes : List Attribute}

/-- A tag that starts an element is read up to its end, whichever that is. -/
theorem yields_token_opening {ending marks : List Char} {mark : Char} {read : Token}
    (spelled : isName tag.toList = true) (plain : attributes.all Attribute.isPlain = true)
    (blanks : Blanks ending) (ends : IsTagEnd mark)
    (last : Yields (tagEnd tag attributes) (mark :: marks) rest read) :
    Yields token (Element.opening tag attributes ++ (ending ++ mark :: marks)) rest
      (some read) := by
  rcases exists_cons_of_isName spelled with ⟨letter, more, isTag, isAlpha⟩
  have readsTag : Yields Reader.tag
      (tag.toList ++ ((attributes.flatMap Attribute.print ++ ending) ++ mark :: marks)) rest
      read := by
    refine Yields.look yields_peek ?_
    rw [if_neg (by simp [isTag, ne_of_isAlpha isAlpha])]
    refine Yields.bind (yields_name spelled ?_) ?_
    · rw [List.append_assoc]
      exact stops_attributes attributes blanks ends
    · exact Yields.bind (yields_attributes plain blanks ends) last
  have isText : Element.opening tag attributes ++ (ending ++ mark :: marks) =
      '<' :: (tag.toList ++ ((attributes.flatMap Attribute.print ++ ending) ++ mark :: marks)) := by
    simp [Element.opening]
  rw [isText]
  refine Yields.look yields_peek ?_
  refine Yields.eat ?_
  rw [if_pos rfl]
  exact Yields.map readsTag rfl

theorem yields_token_opens (spelled : isName tag.toList = true)
    (plain : attributes.all Attribute.isPlain = true) :
    Yields token (Element.opening tag attributes ++ ['>']) rest (some (.opens tag attributes)) := by
  have last : Yields (tagEnd tag attributes) ['>'] rest (.opens tag attributes) := by
    refine Yields.look yields_peek ?_
    rw [if_neg (by simp)]
    exact Yields.map (yields_word ['>']) rfl
  -- Nothing stands between the attributes and the end.
  have reads := yields_token_opening spelled plain blanks_nil (Or.inr rfl) last
  exact reads

theorem yields_token_alone (spelled : isName tag.toList = true)
    (plain : attributes.all Attribute.isPlain = true) :
    Yields token (Element.opening tag attributes ++ " />".toList) rest
      (some (.alone tag attributes)) := by
  have last : Yields (tagEnd tag attributes) ['/', '>'] rest (.alone tag attributes) := by
    refine Yields.look yields_peek ?_
    rw [if_pos (by simp)]
    exact Yields.map (yields_word ['/', '>']) rfl
  have reads := yields_token_opening spelled plain blanks_single (Or.inl rfl) last
  exact reads

theorem yields_token_closes (spelled : isName tag.toList = true) :
    Yields token (Element.closing tag) rest (some (.closes tag)) := by
  have readsTag : Yields Reader.tag ('/' :: (tag.toList ++ ['>'])) rest (.closes tag) := by
    refine Yields.look yields_peek ?_
    rw [if_pos (by simp)]
    refine Yields.eat ?_
    refine Yields.bind (yields_name spelled (stops_cons.mpr rfl)) ?_
    exact Yields.map (yields_word ['>']) rfl
  refine Yields.look yields_peek ?_
  refine Yields.eat ?_
  rw [if_pos rfl]
  exact Yields.map readsTag rfl

end Tags

end Reader

end Wireframe.Markup
