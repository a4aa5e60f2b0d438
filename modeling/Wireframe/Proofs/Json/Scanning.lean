import Wireframe.Json.Parser
import Wireframe.Json.Printer

/-!
Contract: what scanners make of text of a known form.

Owns:
- `Yields`: a scanner reads some characters off the front of a text, whatever its
  offset, and how readings follow one another;
- blanks, fixed words, and repeated steps;
- string literals, which are read as the text they spell.

Does not own: numbers, and values with values inside.
-/

namespace Wireframe.Json

open Scanner

/-- The scanner reads `chars` off the front of a text that goes on with `rest`. -/
def Yields {ε α : Type} (scanner : Scanner ε α) (chars rest : List Char) (value : α) : Prop :=
  ∀ offset, ∃ next, scanner ⟨chars ++ rest, offset⟩ = .ok (value, ⟨rest, next⟩)

namespace Yields

variable {ε α β : Type} {first : Scanner ε α} {value : α} {chars rest : List Char}

theorem pure : Yields (pure value : Scanner ε α) [] rest value :=
  fun offset => ⟨offset, rfl⟩

theorem bind {next : α → Scanner ε β} {more : List Char} {result : β}
    (reads : Yields first chars (more ++ rest) value)
    (goesOn : Yields (next value) more rest result) :
    Yields (first >>= next) (chars ++ more) rest result := by
  intro offset
  obtain ⟨middle, readsHere⟩ := reads offset
  obtain ⟨last, goesOnHere⟩ := goesOn middle
  refine ⟨last, ?_⟩
  change (first ⟨chars ++ more ++ rest, offset⟩).bind (fun read => next read.1 read.2) = _
  rw [List.append_assoc, readsHere]
  exact goesOnHere

/-- A scanner that looks without reading, before another. -/
theorem look {next : α → Scanner ε β} {result : β}
    (looks : Yields first [] (chars ++ rest) value)
    (goesOn : Yields (next value) chars rest result) :
    Yields (first >>= next) chars rest result :=
  bind looks goesOn

/-- A scanner before another that reads nothing more. -/
theorem last {next : α → Scanner ε β} {result : β} (reads : Yields first chars rest value)
    (goesOn : Yields (next value) [] rest result) :
    Yields (first >>= next) chars rest result := by
  rw [← List.append_nil chars]
  exact bind reads goesOn

theorem eat {char : Char} {next : Unit → Scanner ε β} {result : β}
    (goesOn : Yields (next ()) chars rest result) :
    Yields (Scanner.eat >>= next) (char :: chars) rest result :=
  fun offset => goesOn (offset + char.utf8Size)

theorem get {next : Cursor → Scanner ε β} {result : β}
    (goesOn : ∀ offset, Yields (next ⟨chars ++ rest, offset⟩) chars rest result) :
    Yields (MonadState.get >>= next) chars rest result :=
  fun offset => goesOn offset offset

theorem map {result : β} {make : α → β} (reads : Yields first chars rest value)
    (makes : make value = result) :
    Yields (first >>= fun read => Pure.pure (make read)) chars rest result :=
  last reads (makes ▸ Yields.pure)

end Yields

/-! ### Characters and blanks -/

section Basics

variable {ε : Type} {chars rest : List Char}

theorem yields_peek : Yields (peek : Scanner ε (Option Char)) [] rest rest.head? :=
  fun offset => ⟨offset, rfl⟩

theorem yields_eat (char : Char) : Yields (eat : Scanner ε Unit) [char] rest () :=
  fun _ => ⟨_, rfl⟩

/-- No character that satisfies the test comes next. -/
def Stops (test : Char → Bool) (chars : List Char) : Prop :=
  ∀ char ∈ chars.head?, test char = false

theorem stops_cons {test : Char → Bool} {char : Char} :
    Stops test (char :: chars) ↔ test char = false := by
  simp [Stops]

theorem takeWhile_append_of_stops {test : Char → Bool} (all : ∀ char ∈ chars, test char = true)
    (stops : Stops test rest) : (chars ++ rest).takeWhile test = chars := by
  rw [List.takeWhile_append_of_pos all]
  cases rest with
  | nil => simp
  | cons next rest => simp [stops_cons.mp stops]

theorem dropWhile_append_of_stops {test : Char → Bool} (all : ∀ char ∈ chars, test char = true)
    (stops : Stops test rest) : (chars ++ rest).dropWhile test = rest := by
  rw [List.dropWhile_append_of_pos all]
  cases rest with
  | nil => rfl
  | cons next rest => simp [stops_cons.mp stops]

theorem yields_eatWhile {test : Char → Bool} (all : ∀ char ∈ chars, test char = true)
    (stops : Stops test rest) :
    Yields (eatWhile test : Scanner ε (List Char)) chars rest chars := by
  intro offset
  refine ⟨offset + byteLength chars, ?_⟩
  simp only [eatWhile, takeWhile_append_of_stops all stops, dropWhile_append_of_stops all stops]

/-- Characters that may stand between tokens. -/
def Blanks (chars : List Char) : Prop :=
  ∀ char ∈ chars, isBlank char = true

theorem blanks_nil : Blanks [] := by
  simp [Blanks]

theorem yields_peekToken (blanks : Blanks chars) (stops : Stops isBlank rest) :
    Yields (peekToken : Scanner ε (Option Char)) chars rest rest.head? := by
  exact Yields.last (yields_eatWhile blanks stops) yields_peek

theorem yields_word (expected : List Char) : Yields (word expected) expected rest () := by
  induction expected with
  | nil => exact Yields.pure
  | cons char expected inductionHypothesis =>
      refine Yields.look yields_peek ?_
      simp only [List.cons_append, List.head?_cons, if_true]
      exact Yields.eat inductionHypothesis

end Basics

/-! ### Separators -/

section Separators

variable {blanks rest : List Char}

theorem yields_colon (areBlank : Blanks blanks) : Yields colon (blanks ++ [':']) rest () := by
  refine Yields.bind (yields_peekToken areBlank (stops_cons.mpr rfl)) ?_
  exact yields_eat ':'

theorem yields_listEnd : Yields listEnd [']'] rest () :=
  Yields.look (yields_peekToken blanks_nil (stops_cons.mpr rfl)) (yields_eat ']')

theorem yields_objectEnd : Yields objectEnd ['\x7d'] rest () :=
  Yields.look (yields_peekToken blanks_nil (stops_cons.mpr rfl)) (yields_eat '\x7d')

theorem yields_textEnd (areBlank : Blanks blanks) : Yields textEnd blanks [] () :=
  Yields.last (yields_peekToken areBlank (by simp [Stops])) Yields.pure

theorem yields_listContinues_stop (first : Bool) (areBlank : Blanks blanks) :
    Yields (listContinues first) blanks (']' :: rest) false :=
  Yields.last (yields_peekToken areBlank (stops_cons.mpr rfl)) Yields.pure

theorem yields_objectContinues_stop (first : Bool) (areBlank : Blanks blanks) :
    Yields (objectContinues first) blanks ('\x7d' :: rest) false :=
  Yields.last (yields_peekToken areBlank (stops_cons.mpr rfl)) Yields.pure

/-- What stands before an item: a comma unless it is the first, and blanks. -/
def leading (blanks : List Char) : Bool → List Char
  | true => blanks
  | false => ',' :: blanks

theorem yields_listContinues (first : Bool) (areBlank : Blanks blanks) {char : Char}
    (notBlank : isBlank char = false) (notEnd : char ≠ ']') :
    Yields (listContinues first) (leading blanks first) (char :: rest) true := by
  cases first with
  | true =>
      refine Yields.last (yields_peekToken areBlank (stops_cons.mpr notBlank)) ?_
      simp only [List.head?_cons]
      exact Yields.pure
  | false =>
      refine Yields.look (yields_peekToken blanks_nil (stops_cons.mpr rfl)) ?_
      refine Yields.eat ?_
      refine Yields.last (yields_peekToken areBlank (stops_cons.mpr notBlank)) ?_
      simp only [List.head?_cons]
      exact Yields.pure

theorem yields_objectContinues (first : Bool) (areBlank : Blanks blanks) :
    Yields (objectContinues first) (leading blanks first) ('"' :: rest) true := by
  cases first with
  | true => exact Yields.last (yields_peekToken areBlank (stops_cons.mpr rfl)) Yields.pure
  | false =>
      refine Yields.look (yields_peekToken blanks_nil (stops_cons.mpr rfl)) ?_
      refine Yields.eat ?_
      exact Yields.last (yields_peekToken areBlank (stops_cons.mpr rfl)) Yields.pure

end Separators

/-! ### Repeated steps -/

section Repeated

variable {ε α : Type} {step : Bool → Scanner ε (Option α)}

/-- The step reads one value after another and then comes to an end. -/
inductive Repeats (step : Bool → Scanner ε (Option α)) (rest : List Char) :
    Bool → List Char → List α → Prop
  | stop {first : Bool} {chars : List Char} (stops : Yields (step first) chars rest none) :
      Repeats step rest first chars []
  | again {first : Bool} {chars more : List Char} {value : α} {values : List α}
      (reads : Yields (step first) chars (more ++ rest) (some value)) (notEmpty : chars ≠ [])
      (goesOn : Repeats step rest false more values) :
      Repeats step rest first (chars ++ more) (value :: values)

variable {rest chars : List Char} {first : Bool} {values : List α}

theorem Repeats.length_le (repeats : Repeats step rest first chars values) :
    values.length ≤ chars.length := by
  induction repeats with
  | stop => simp
  | again reads notEmpty goesOn inductionHypothesis =>
      have positive := List.length_pos_iff.mpr notEmpty
      simp only [List.length_cons, List.length_append]
      omega

theorem Repeats.yields_collect (repeats : Repeats step rest first chars values) {bound : Nat}
    (room : values.length < bound) : Yields (collect step bound first) chars rest values := by
  induction repeats generalizing bound with
  | stop stops =>
      obtain ⟨bound, rfl⟩ : ∃ smaller, bound = smaller + 1 := ⟨bound - 1, by omega⟩
      exact Yields.last stops Yields.pure
  | again reads notEmpty goesOn inductionHypothesis =>
      obtain ⟨bound, rfl⟩ : ∃ smaller, bound = smaller + 1 := ⟨bound - 1, by omega⟩
      rw [List.length_cons] at room
      exact Yields.bind reads (Yields.map (inductionHypothesis (by omega)) rfl)

theorem Repeats.yields_collectAll (repeats : Repeats step rest true chars values) :
    Yields (collectAll step) chars rest values := by
  intro offset
  have atMost := repeats.length_le
  have room : values.length < (chars ++ rest).length + 1 := by
    rw [List.length_append]
    omega
  exact repeats.yields_collect room offset

end Repeated

/-! ### String literals -/

/-- The four digits of an escaped control character spell it. -/
theorem hexValues?_control {char : Char} (control : char.toNat < 32) :
    hexValues? ['0', '0', hexDigit (char.toNat / 16), hexDigit char.toNat] = some char.toNat := by
  have spelled : ∀ code < 32,
      hexValues? ['0', '0', hexDigit (code / 16), hexDigit code] = some code := by
    decide
  exact spelled char.toNat control

theorem yields_hexEscape {char : Char} (control : char.toNat < 32) (rest : List Char) :
    Yields hexEscape ['0', '0', hexDigit (char.toNat / 16), hexDigit char.toNat] rest
      char.toNat := by
  intro offset
  refine ⟨offset + 4, ?_⟩
  simp only [hexEscape, List.cons_append, List.nil_append, hexValues?_control control]

theorem yields_unicodeEscape {char : Char} (control : char.toNat < 32) (rest : List Char) :
    Yields unicodeEscape ['0', '0', hexDigit (char.toNat / 16), hexDigit char.toNat] rest
      char := by
  refine Yields.last (yields_hexEscape control rest) ?_
  rw [if_neg (by omega), if_neg (by omega), Char.ofNat_toNat]
  exact Yields.pure

/-- Every character is read back from the way it is written in a string. -/
theorem yields_stringChar (char : Char) (rest : List Char) :
    Yields stringChar (escapeChar char) rest (some char) := by
  have escaped (letter : Char) (simple : simpleEscape? letter = some char)
      (notUnicode : letter ≠ 'u') : Yields stringChar ['\\', letter] rest (some char) := by
    refine Yields.look yields_peek ?_
    refine Yields.eat ?_
    refine Yields.last ?_ Yields.pure
    refine Yields.look yields_peek ?_
    simp only [List.singleton_append, List.head?_cons, simple]
    exact Yields.last (yields_eat letter) Yields.pure
  unfold escapeChar
  split
  · rename_i isQuote
    exact escaped '"' (congrArg some isQuote.symm) (by decide)
  split
  · rename_i isBackslash
    exact escaped '\\' (congrArg some isBackslash.symm) (by decide)
  split
  · rename_i isBackspace
    exact escaped 'b' (congrArg some isBackspace.symm) (by decide)
  split
  · rename_i isFormFeed
    exact escaped 'f' (congrArg some isFormFeed.symm) (by decide)
  split
  · rename_i isLineBreak
    exact escaped 'n' (congrArg some isLineBreak.symm) (by decide)
  split
  · rename_i isReturn
    exact escaped 'r' (congrArg some isReturn.symm) (by decide)
  split
  · rename_i isTab
    exact escaped 't' (congrArg some isTab.symm) (by decide)
  split
  · rename_i control
    refine Yields.look yields_peek ?_
    refine Yields.eat ?_
    refine Yields.last ?_ Yields.pure
    refine Yields.look yields_peek ?_
    refine Yields.eat ?_
    exact yields_unicodeEscape control rest
  · rename_i notQuote notBackslash _ _ _ _ _ notControl
    refine Yields.look yields_peek ?_
    simp only [List.singleton_append, List.head?_cons, notControl, if_false]
    exact Yields.last (yields_eat char) Yields.pure

theorem yields_stringChar_end (rest : List Char) : Yields stringChar ['"'] rest none := by
  refine Yields.look yields_peek ?_
  exact Yields.last (yields_eat '"') Yields.pure

theorem length_escapeChar_pos (char : Char) : 0 < (escapeChar char).length := by
  unfold escapeChar
  repeat' split
  all_goals simp

theorem length_le_flatMap_escapeChar (chars : List Char) :
    chars.length ≤ (chars.flatMap escapeChar).length := by
  induction chars with
  | nil => simp
  | cons char chars inductionHypothesis =>
      have positive := length_escapeChar_pos char
      simp only [List.flatMap_cons, List.length_append, List.length_cons]
      omega

theorem yields_stringRest (chars rest : List Char) {bound : Nat} (room : chars.length < bound)
    (done : List Char) :
    Yields (stringRest bound done) (chars.flatMap escapeChar ++ ['"']) rest
      (done.reverse ++ chars) := by
  induction chars generalizing bound done with
  | nil =>
      obtain ⟨bound, rfl⟩ : ∃ smaller, bound = smaller + 1 := ⟨bound - 1, by omega⟩
      intro offset
      obtain ⟨next, reads⟩ := yields_stringChar_end rest offset
      refine ⟨next, ?_⟩
      unfold stringRest
      simp only [List.flatMap_nil, List.nil_append, reads, List.append_nil]
  | cons char chars inductionHypothesis =>
      rw [List.length_cons] at room
      obtain ⟨bound, rfl⟩ : ∃ smaller, bound = smaller + 1 := ⟨bound - 1, by omega⟩
      intro offset
      obtain ⟨middle, reads⟩ :=
        yields_stringChar char (chars.flatMap escapeChar ++ ['"'] ++ rest) offset
      obtain ⟨next, goesOn⟩ :=
        inductionHypothesis (Nat.lt_of_succ_lt_succ room) (char :: done) middle
      refine ⟨next, ?_⟩
      unfold stringRest
      simp only [List.flatMap_cons, List.append_assoc] at reads goesOn ⊢
      rw [reads, List.append_cons, ← List.reverse_cons]
      exact goesOn

/-- A string is read back from its literal, after the opening quote. -/
theorem yields_string (text : String) (rest : List Char) :
    Yields string (text.toList.flatMap escapeChar ++ ['"']) rest text := by
  intro offset
  have atMost := length_le_flatMap_escapeChar text.toList
  have room : text.toList.length <
      (text.toList.flatMap escapeChar ++ ['"'] ++ rest).length + 1 := by
    simp only [List.length_append]
    omega
  obtain ⟨next, reads⟩ := yields_stringRest text.toList rest room [] offset
  refine ⟨next, ?_⟩
  unfold string
  simp only [reads, List.reverse_nil, List.nil_append, String.ofList_toList]

end Wireframe.Json
