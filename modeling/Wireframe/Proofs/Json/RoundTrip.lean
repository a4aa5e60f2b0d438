import Wireframe.Proofs.Json.Depth
import Wireframe.Proofs.Json.Numerals

/-!
Contract: text that was printed from a value is read back as that value.

Owns:
- lists and objects, from how their parts are read;
- values in their indented form, which are read with their keys in order as long
  as they are not nested too deeply, also with a line break behind them.

Does not own: what parsed values are like.
-/

namespace Wireframe.Json

open Number Scanner

/-! ### What may follow a value -/

/-- A character that stands between the values of a list or an object. -/
def isSeparator (char : Char) : Bool :=
  isBlank char || char == ',' || char == ']' || char == '\x7d'

theorem numberEnds_nil : NumberEnds [] := by
  constructor <;> simp [Stops]

theorem numberEnds_cons {char : Char} {rest : List Char} (separates : isSeparator char = true) :
    NumberEnds (char :: rest) := by
  have isOne : char = ' ' ∨ char = '\n' ∨ char = '\t' ∨ char = '\r' ∨ char = ',' ∨ char = ']' ∨
      char = '\x7d' := by
    simpa [isSeparator, isBlank, or_assoc] using separates
  rcases isOne with rfl | rfl | rfl | rfl | rfl | rfl | rfl
  all_goals
    constructor
    all_goals exact stops_cons.mpr rfl

theorem numberEnds_blanks {blanks rest : List Char} (areBlank : Blanks blanks)
    (ends : NumberEnds rest) : NumberEnds (blanks ++ rest) := by
  cases blanks with
  | nil => exact ends
  | cons blank blanks =>
      refine numberEnds_cons ?_
      rw [isSeparator, areBlank blank List.mem_cons_self]
      rfl

/-! ### Parts -/

theorem separated_cons (separator part : List Char) (parts : List (List Char)) :
    separated separator (part :: parts) = part ++ parts.flatMap (separator ++ ·) := by
  induction parts generalizing part with
  | nil => simp [separated]
  | cons next parts inductionHypothesis =>
      rw [separated, inductionHypothesis]
      · simp only [List.flatMap_cons, List.append_assoc]
      · simp

section Parts

variable {α : Type} {step : Bool → Scanner Failure (Option α)}

/-- Wherever it stands, a part of a list or an object is read as a value. -/
structure Part (step : Bool → Scanner Failure (Option α)) (text : List Char) (value : α) :
    Prop where
  notEmpty : text ≠ []
  reads (first : Bool) {blanks rest : List Char} (areBlank : Blanks blanks)
    (ends : NumberEnds rest) : Yields (step first) (leading blanks first ++ text) rest (some value)

variable {blanks after rest : List Char} {texts : List (List Char)} {values : List α}

theorem repeats_parts (areBlank : Blanks blanks) (ends : NumberEnds (after ++ rest))
    (stops : Yields (step false) after rest none) (parts : List.Forall₂ (Part step) texts values) :
    Repeats step rest false (texts.flatMap ((',' :: blanks) ++ ·) ++ after) values := by
  induction parts with
  | nil => exact .stop stops
  | cons part parts inductionHypothesis =>
      rw [List.flatMap_cons, List.append_assoc]
      refine .again (part.reads false areBlank ?_) nofun inductionHypothesis
      cases parts with
      | nil => exact ends
      | cons next others => exact numberEnds_cons rfl

theorem repeats_separated {text : List Char} {value : α} (areBlank : Blanks blanks)
    (ends : NumberEnds (after ++ rest)) (stops : Yields (step false) after rest none)
    (part : Part step text value) (parts : List.Forall₂ (Part step) texts values) :
    Repeats step rest true (blanks ++ separated (',' :: blanks) (text :: texts) ++ after)
      (value :: values) := by
  rw [separated_cons, ← List.append_assoc, List.append_assoc]
  refine .again (part.reads true areBlank ?_) (List.append_ne_nil_of_right_ne_nil _ part.notEmpty)
    (repeats_parts areBlank ends stops parts)
  cases parts with
  | nil => exact ends
  | cons next others => exact numberEnds_cons rfl

end Parts

/-! ### Values inside values -/

/-- Wherever it stands, a text is read as a value. -/
structure ReadsAs (item : Scanner Failure Value) (text : List Char) (value : Value) : Prop where
  starts : ∃ char more, text = char :: more ∧ isBlank char = false ∧ char ≠ ']'
  reads {blanks rest : List Char} (areBlank : Blanks blanks) (ends : NumberEnds rest) :
    Yields item (blanks ++ text) rest value

section Inside

variable {item : Scanner Failure Value} {text : List Char} {value : Value}

theorem part_listItem (readsAs : ReadsAs item text value) : Part (listItem item) text value := by
  obtain ⟨⟨char, more, rfl, notBlank, notEnd⟩, reads⟩ := readsAs
  refine ⟨nofun, fun first blanks rest areBlank ends => ?_⟩
  refine Yields.bind (yields_listContinues first areBlank notBlank notEnd) ?_
  rw [if_pos rfl]
  exact Yields.map (reads blanks_nil ends) rfl

/-- A member as it is written, with a gap after its colon. -/
def memberText (gap : List Char) (key : String) (text : List Char) : List Char :=
  stringChars key ++ ':' :: (gap ++ text)

theorem part_objectMember {gap : List Char} (isGap : Blanks gap) (key : String)
    (readsAs : ReadsAs item text value) :
    Part (objectMember item) (memberText gap key text) (key, value) := by
  refine ⟨nofun, fun first blanks rest areBlank ends => ?_⟩
  have isText : memberText gap key text =
      '"' :: (key.toList.flatMap escapeChar ++ ['"'] ++ (([] ++ [':']) ++ (gap ++ text))) := by
    simp [memberText, stringChars]
  rw [isText]
  refine Yields.bind (yields_objectContinues first areBlank) ?_
  rw [if_pos rfl]
  refine Yields.eat ?_
  refine Yields.bind (yields_string key _) ?_
  refine Yields.bind (yields_colon blanks_nil) ?_
  exact Yields.map (readsAs.reads isGap ends) rfl

variable {chars rest : List Char}

theorem yields_listItem_stop (first : Bool) (areBlank : Blanks chars) :
    Yields (listItem item first) chars (']' :: rest) none :=
  Yields.last (yields_listContinues_stop first areBlank) Yields.pure

theorem yields_objectMember_stop (first : Bool) (areBlank : Blanks chars) :
    Yields (objectMember item first) chars ('\x7d' :: rest) none :=
  Yields.last (yields_objectContinues_stop first areBlank) Yields.pure

theorem readsAs_list {depth : Nat} {values : List Value}
    (repeats : ∀ {rest}, Repeats (listItem (Scanner.value depth)) (']' :: rest) true chars values) :
    ReadsAs (Scanner.value (depth + 1)) ('[' :: (chars ++ [']'])) (.array values) := by
  refine ⟨⟨'[', _, rfl, rfl, by decide⟩, fun {blanks rest} areBlank _ => ?_⟩
  unfold Scanner.value
  refine Yields.bind (yields_peekToken areBlank (stops_cons.mpr rfl)) ?_
  refine Yields.eat ?_
  refine Yields.bind repeats.yields_collectAll ?_
  exact Yields.last yields_listEnd Yields.pure

theorem readsAs_object {depth : Nat} {members : List (String × Value)}
    (repeats : ∀ {rest},
      Repeats (objectMember (Scanner.value depth)) ('\x7d' :: rest) true chars members) :
    ReadsAs (Scanner.value (depth + 1)) ('\x7b' :: (chars ++ ['\x7d']))
      (.object (Value.orderMembers members)) := by
  refine ⟨⟨'\x7b', _, rfl, rfl, by decide⟩, fun {blanks rest} areBlank _ => ?_⟩
  unfold Scanner.value
  refine Yields.bind (yields_peekToken areBlank (stops_cons.mpr rfl)) ?_
  refine Yields.eat ?_
  refine Yields.bind repeats.yields_collectAll ?_
  exact Yields.last yields_objectEnd Yields.pure

end Inside

/-- The items of a list are its parts, once each is read as a value. -/
theorem parts_items {depth : Nat} {print : Value → List Char} {items : List Value}
    (each : ∀ item ∈ items, ReadsAs (Scanner.value depth) (print item) item.sortKeys) :
    List.Forall₂ (Part (listItem (Scanner.value depth))) (items.map print)
      (items.map Value.sortKeys) := by
  rw [List.forall₂_map_left_iff, List.forall₂_map_right_iff, List.forall₂_same]
  intro item isMember
  exact part_listItem (each item isMember)

/-- The members of an object are its parts, once each is read as a value. -/
theorem parts_members {depth : Nat} {gap : List Char} (isGap : Blanks gap)
    {print : Value → List Char} {members : List (String × Value)}
    (each : ∀ member ∈ members,
      ReadsAs (Scanner.value depth) (print member.2) member.2.sortKeys) :
    List.Forall₂ (Part (objectMember (Scanner.value depth)))
      (members.map fun member => memberText gap member.1 (print member.2))
      (members.map fun member => (member.1, member.2.sortKeys)) := by
  rw [List.forall₂_map_left_iff, List.forall₂_map_right_iff, List.forall₂_same]
  intro member isMember
  exact part_objectMember isGap member.1 (each member isMember)

/-! ### Scalars -/

theorem wholeDigits_fails {char : Char} (notDigit : char.isDigit = false) (rest : List Char)
    (offset : Nat) : ∃ failure, wholeDigits ⟨char :: rest, offset⟩ = .error failure := by
  have notZero : char ≠ '0' := by
    rintro rfl
    exact absurd notDigit (by decide)
  refine ⟨⟨.invalidNumber, offset + 1⟩, ?_⟩
  simp only [wholeDigits, peek, bind, StateT.bind, Except.bind, List.head?_cons, notDigit]
  rfl

theorem digit_of_yields_number {negative : Bool} {chars : List Char} {token : NumberToken}
    (reads : Yields (number negative) chars [] token) :
    ∃ digit more, chars = digit :: more ∧ digit.isDigit = true := by
  obtain ⟨next, readsHere⟩ := reads 0
  cases chars with
  | nil => exact absurd readsHere nofun
  | cons char more =>
      refine ⟨char, more, rfl, ?_⟩
      by_contra notDigit
      obtain ⟨failure, fails⟩ :=
        wholeDigits_fails (Bool.eq_false_of_not_eq_true notDigit) (more ++ []) 0
      have failed : number negative ⟨char :: more ++ [], 0⟩ = .error failure := by
        change (wholeDigits ⟨char :: (more ++ []), 0⟩).bind _ = _
        rw [fails]
        rfl
      exact absurd (failed.symm.trans readsHere) nofun

/-- The first character of a value's text that is neither a list nor an object. -/
structure ScalarHead (char : Char) : Prop where
  notBlank : isBlank char = false
  notEnd : char ≠ ']'
  notList : char ≠ '['
  notObject : char ≠ '\x7b'

theorem scalarHead_of_isDigit {char : Char} (isDigit : char.isDigit = true) :
    ScalarHead char := by
  constructor
  · rw [← Bool.not_eq_true]
    intro blank
    have isOne : char = ' ' ∨ char = '\n' ∨ char = '\t' ∨ char = '\r' := by
      simpa [isBlank, or_assoc] using blank
    rcases isOne with rfl | rfl | rfl | rfl
    all_goals exact absurd isDigit (by decide)
  all_goals
    rintro rfl
    exact absurd isDigit (by decide)

theorem readsAs_scalar {chars : List Char} {value : Value} (depth : Nat)
    (starts : ∃ char more, chars = char :: more ∧ ScalarHead char)
    (reads : ∀ {rest}, NumberEnds rest → Yields scalar chars rest value) :
    ReadsAs (Scanner.value depth) chars value := by
  obtain ⟨char, more, rfl, head⟩ := starts
  refine ⟨⟨char, more, rfl, head.notBlank, head.notEnd⟩, fun {blanks rest} areBlank ends => ?_⟩
  unfold Scanner.value
  refine Yields.bind (yields_peekToken areBlank (stops_cons.mpr head.notBlank)) ?_
  simp only [List.cons_append, List.head?_cons]
  split
  · rename_i isList
    exact absurd (Option.some.inj isList) head.notList
  · rename_i isObject
    exact absurd (Option.some.inj isObject) head.notObject
  · exact reads ends

theorem yields_scalar_number {negative : Bool} {chars : List Char} {token : NumberToken}
    (reads : ∀ {rest}, NumberEnds rest → Yields (number negative) chars rest token) :
    (∃ char more, (if negative then '-' :: chars else chars) = char :: more ∧ ScalarHead char) ∧
      ∀ {rest}, NumberEnds rest →
        Yields scalar (if negative then '-' :: chars else chars) rest token.toValue := by
  obtain ⟨digit, more, rfl, isDigit⟩ := digit_of_yields_number (reads numberEnds_nil)
  cases negative with
  | true =>
      refine ⟨⟨'-', digit :: more, rfl, by constructor <;> decide⟩, fun {rest} ends => ?_⟩
      refine Yields.look yields_peek ?_
      refine Yields.eat ?_
      exact Yields.map (reads ends) rfl
  | false =>
      refine ⟨⟨digit, more, rfl, scalarHead_of_isDigit isDigit⟩, fun {rest} ends => ?_⟩
      have isOther (char : Char) (notDigit : char.isDigit = false) : digit ≠ char := by
        rintro rfl
        exact absurd isDigit (by rw [notDigit]; decide)
      have notNull := isOther 'n' rfl
      have notTrue := isOther 't' rfl
      have notFalse := isOther 'f' rfl
      have notMinus := isOther '-' rfl
      have notQuote := isOther '"' rfl
      refine Yields.look yields_peek ?_
      simp only [Bool.false_eq_true, if_false, List.cons_append, List.head?_cons, isDigit, if_true]
      exact Yields.map (reads ends) rfl

theorem readsAs_integer (depth : Nat) (integer : Integer) :
    ReadsAs (Scanner.value depth) (integerChars integer.value) (.integer integer) := by
  have spelled : integerChars integer.value = if decide (integer.value < 0) then
      '-' :: Nat.toDigits 10 integer.value.natAbs else Nat.toDigits 10 integer.value.natAbs := by
    simp only [integerChars, decide_eq_true_eq]
  have signed : (if decide (integer.value < 0) = true then -(integer.value.natAbs : Int)
      else integer.value.natAbs) = integer.value := by
    simp only [decide_eq_true_eq]
    split <;> omega
  have reads {rest : List Char} (ends : NumberEnds rest) :
      Yields (number (decide (integer.value < 0))) (Nat.toDigits 10 integer.value.natAbs) rest
        (.integer integer) := by
    refine yields_wholeNumber ends ?_ ?_
    · rw [signed, ofInt?_value]
    · intro negative
      have below := of_decide_eq_true negative
      omega
  rw [spelled]
  exact readsAs_scalar depth (yields_scalar_number reads).1 (yields_scalar_number reads).2

theorem readsAs_float (depth : Nat) (number : Binary64) :
    ReadsAs (Scanner.value depth) (Spelling.data.write number) (.float number) := by
  have reads {rest : List Char} (ends : NumberEnds rest) := yields_magnitudeChars number ends
  rw [write_eq]
  exact readsAs_scalar depth (yields_scalar_number reads).1 (yields_scalar_number reads).2

theorem readsAs_string (depth : Nat) (text : String) :
    ReadsAs (Scanner.value depth) (stringChars text) (.string text) := by
  refine readsAs_scalar depth ⟨'"', _, rfl, by constructor <;> decide⟩ fun {rest} ends => ?_
  refine Yields.look yields_peek ?_
  refine Yields.eat ?_
  exact Yields.map (yields_string text rest) rfl

theorem readsAs_null (depth : Nat) :
    ReadsAs (Scanner.value depth) ['n', 'u', 'l', 'l'] .null := by
  refine readsAs_scalar depth ⟨'n', _, rfl, by constructor <;> decide⟩ fun {rest} ends => ?_
  refine Yields.look yields_peek ?_
  refine Yields.eat ?_
  exact Yields.last (yields_word _) Yields.pure

theorem readsAs_bool (depth : Nat) (flag : Bool) :
    ReadsAs (Scanner.value depth) (Value.bool flag).compactChars (.bool flag) := by
  cases flag with
  | true =>
      refine readsAs_scalar depth ⟨'t', _, rfl, by constructor <;> decide⟩ fun {rest} ends => ?_
      refine Yields.look yields_peek ?_
      refine Yields.eat ?_
      exact Yields.last (yields_word _) Yields.pure
  | false =>
      refine readsAs_scalar depth ⟨'f', _, rfl, by constructor <;> decide⟩ fun {rest} ends => ?_
      refine Yields.look yields_peek ?_
      refine Yields.eat ?_
      exact Yields.last (yields_word _) Yields.pure

/-! ### The indented form -/

namespace Value

theorem prettyItems_eq_map (level : Nat) (items : List Value) :
    prettyItems level items = items.map (prettyChars level) := by
  induction items with
  | nil => rfl
  | cons item items inductionHypothesis =>
      rw [prettyItems, inductionHypothesis, List.map_cons]

theorem prettyMembers_eq_map (level : Nat) (members : List (String × Value)) :
    prettyMembers level members =
      members.map fun member => memberText [' '] member.1 (member.2.prettyChars level) := by
  induction members with
  | nil => rfl
  | cons member members inductionHypothesis =>
      obtain ⟨key, value⟩ := member
      rw [prettyMembers, inductionHypothesis, List.map_cons]
      rfl

end Value

theorem blanks_lineStart (level : Nat) : Blanks (Value.lineStart level) := by
  intro char isMember
  rcases List.mem_cons.mp isMember with rfl | isSpace
  · rfl
  · rw [List.eq_of_mem_replicate isSpace]
    rfl

/-- The parts of an indented block are read one after another. -/
theorem repeats_prettyBlock {α : Type} {step : Bool → Scanner Failure (Option α)}
    {texts : List (List Char)} {values : List α} (opening closing : Char) (level : Nat)
    (separates : isSeparator closing = true)
    (stops : ∀ first {blanks rest}, Blanks blanks →
      Yields (step first) blanks (closing :: rest) none)
    (parts : List.Forall₂ (Part step) texts values) :
    ∃ chars, Value.prettyBlock opening closing level texts = opening :: (chars ++ [closing]) ∧
      ∀ {rest}, Repeats step (closing :: rest) true chars values := by
  cases parts with
  | nil => exact ⟨[], rfl, .stop (stops true blanks_nil)⟩
  | cons part parts =>
      refine ⟨_, rfl, fun {rest} => ?_⟩
      exact repeats_separated (blanks_lineStart (level + 1))
        (numberEnds_blanks (blanks_lineStart level) (numberEnds_cons separates))
        (stops false (blanks_lineStart level)) part parts

/-- An indented value that is not nested too deeply is read with its keys in order. -/
theorem readsAs_pretty (value : Value) {depth : Nat} (fits : value.depth ≤ depth) (level : Nat) :
    ReadsAs (Scanner.value depth) (value.prettyChars level) value.sortKeys := by
  induction value using Value.induction generalizing depth level with
  | null => exact readsAs_null depth
  | bool flag => exact readsAs_bool depth flag
  | integer number => exact readsAs_integer depth number
  | float number => exact readsAs_float depth number
  | string text => exact readsAs_string depth text
  | array items inductionHypothesis =>
      have positive := Value.depth_array_pos items
      obtain ⟨depth, rfl⟩ : ∃ smaller, depth = smaller + 1 := ⟨depth - 1, by omega⟩
      rw [Value.depth_array_le_succ] at fits
      have parts := parts_items fun item isMember =>
        inductionHypothesis item isMember (fits item isMember) (level + 1)
      rw [← Value.prettyItems_eq_map] at parts
      obtain ⟨chars, isText, repeats⟩ :=
        repeats_prettyBlock '[' ']' level rfl
          (fun first _ _ areBlank => yields_listItem_stop first areBlank) parts
      rw [Value.sortKeys_array, Value.prettyChars, isText]
      exact readsAs_list repeats
  | object members inductionHypothesis =>
      have positive := Value.depth_object_pos members
      obtain ⟨depth, rfl⟩ : ∃ smaller, depth = smaller + 1 := ⟨depth - 1, by omega⟩
      rw [Value.depth_object_le_succ] at fits
      have isGap : Blanks [' '] := by simp [Blanks, isBlank]
      have parts := parts_members isGap fun member isMember =>
        inductionHypothesis member isMember (fits member isMember) (level + 1)
      rw [← Value.prettyMembers_eq_map] at parts
      obtain ⟨chars, isText, repeats⟩ :=
        repeats_prettyBlock '\x7b' '\x7d' level rfl
          (fun first _ _ areBlank => yields_objectMember_stop first areBlank) parts
      rw [Value.sortKeys_object, Value.prettyChars, isText]
      exact readsAs_object repeats

/-- A whole text, read with some depth. -/
def wholeText (depth : Nat) : Scanner Failure Value := do
  let value ← Scanner.value depth
  textEnd
  pure value

theorem parse_eq (text : String) :
    parse text = (wholeText nestingLimit).run' (Cursor.start text) :=
  rfl

theorem yields_wholeText {value : Value} {depth : Nat} (fits : value.depth ≤ depth) :
    Yields (wholeText depth) (value.prettyChars 0) [] value.sortKeys := by
  have reads := (readsAs_pretty value fits 0).reads blanks_nil numberEnds_nil
  exact Yields.last reads (Yields.last (yields_textEnd blanks_nil) Yields.pure)

/-- Indented text is read back as the value it was made from, with its keys in order. -/
theorem parse_pretty {value : Value} (fits : value.depth ≤ nestingLimit) :
    parse value.pretty = .ok value.sortKeys := by
  obtain ⟨next, reads⟩ := yields_wholeText fits 0
  rw [List.append_nil] at reads
  unfold Value.pretty
  rw [parse_eq, StateT.run', Cursor.start, String.toList_ofList, reads]
  rfl

/-- A line break after a text changes nothing about the value that it is read as. -/
theorem parse_line {chars : List Char} {value : Value}
    (readsAs : ReadsAs (Scanner.value nestingLimit) chars value) :
    parse (String.ofList chars ++ "\n") = .ok value := by
  have blank : Blanks ['\n'] := by simp [Blanks, isBlank]
  have ends : NumberEnds (['\n'] ++ []) := numberEnds_blanks blank numberEnds_nil
  have reads : Yields (wholeText nestingLimit) (chars ++ ['\n']) [] value :=
    Yields.bind (readsAs.reads blanks_nil ends) (Yields.last (yields_textEnd blank) Yields.pure)
  obtain ⟨next, readsHere⟩ := reads 0
  have isText : (String.ofList chars ++ "\n").toList = chars ++ ['\n'] ++ [] := by simp
  rw [parse_eq, StateT.run', Cursor.start, isText, readsHere]
  rfl

end Wireframe.Json
