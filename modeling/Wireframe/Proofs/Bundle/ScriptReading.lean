import Wireframe.Json.Printer
import Wireframe.Proofs.Json.Scanning
import Wireframe.Proofs.Markup.Tags

/-!
Contract: how a script with elements in it is read.

Owns:
- `State`, where a reader stands: in code, in a string literal, between tags or in one;
- `read`, a whole file as words, marks, string literals, tags and the characters between
  them, with what literals and attributes denote;
- string literals and attribute values, which denote the texts that they were written for.

Only what a file may hold in just one meaning is read. An element starts behind an opening
parenthesis alone, where no comparison can; comments, templates, patterns, continued lines
and escapes beyond those below are refused.

Does not own: what a tool makes of line breaks in the value of an attribute, or of blanks
between tags.
-/

namespace Wireframe.Script

open Json

/-- A piece of a file as it is read. -/
inductive Token where
  /-- A name or a keyword. -/
  | word (text : String)
  /-- A character of punctuation. -/
  | mark (char : Char)
  /-- A string literal, as the text that it denotes. -/
  | literal (value : String)
  /-- The tag that starts an element, with the texts that its attributes denote. -/
  | opens (tag : String) (attributes : List (String × String))
  | closes (tag : String)
  /-- A character between tags. -/
  | char (char : Char)
deriving DecidableEq

/-- What a place is enclosed by. -/
inductive Frame where
  | braces
  | element (tag : String)
deriving DecidableEq

/-- A tag that starts an element, as far as it has been read. -/
structure Tag where
  name : String
  attributes : List (String × String) := []
deriving DecidableEq

namespace Tag

def push (tag : Tag) (key value : String) : Tag :=
  { tag with attributes := tag.attributes ++ [(key, value)] }

end Tag

/-- What a reader is in the middle of. -/
inductive Place where
  /-- Code; directly behind an opening parenthesis an element may start. -/
  | code (behindParenthesis : Bool)
  | word (letters : List Char)
  /-- A string literal, behind what denotes some characters. -/
  | literal (quote : Char) (value : List Char)
  | backslash (quote : Char) (value : List Char)
  /-- The digits of an escape, of which one and `more` are missing. -/
  | digits (quote : Char) (value : List Char) (code more : Nat)
  /-- Between the tags of an element. -/
  | inside
  | tagStart
  | closing (letters : List Char)
  | opening (letters : List Char)
  /-- In a tag that starts an element, outside of its attributes. -/
  | tag (tag : Tag)
  | key (tag : Tag) (letters : List Char)
  | equals (tag : Tag) (key : String)
  /-- The value of an attribute, behind what denotes some characters. -/
  | value (tag : Tag) (key : String) (value : List Char)
  | entity (tag : Tag) (key : String) (value letters : List Char)
deriving DecidableEq

/-- Where a reader stands, and in what, the innermost frame first. -/
structure State where
  place : Place := .code false
  frames : List Frame := []
deriving DecidableEq

/-! ### Steps -/

/-- What the end of a frame leads back to. -/
def resumed : List Frame → Place
  | .element _ :: _ => .inside
  | _ => .code false

/-- The character that a letter behind a backslash stands for. -/
def escaped? (letter : Char) : Option Char :=
  if letter = 'b' then some '\x08'
  else if letter = 'f' then some '\x0c'
  else if letter = 'n' then some '\n'
  else if letter = 'r' then some '\r'
  else if letter = 't' then some '\t'
  else if letter = 'v' then some '\x0b'
  else if letter = '"' ∨ letter = '\x27' ∨ letter = '\\' then some letter
  else none

def punctuation : List Char := ['(', ')', ':', ';', ',', '=', '.']

/-- A step that produces nothing. -/
def goTo (frames : List Frame) (place : Place) : Option (List Token × State) :=
  some ([], ⟨place, frames⟩)

def stepCode (frames : List Frame) (behindParenthesis : Bool) (char : Char) :
    Option (List Token × State) :=
  if isBlank char then goTo frames (.code behindParenthesis)
  else if char.isAlpha then goTo frames (.word [char])
  else if char = '"' ∨ char = '\x27' then goTo frames (.literal char [])
  else if char = '\x7b' then some ([.mark char], ⟨.code false, .braces :: frames⟩)
  else if char = '\x7d' then
    match frames with
    | .braces :: outer => some ([.mark char], ⟨resumed outer, outer⟩)
    | _ => none
  else if char = '<' ∧ behindParenthesis then goTo frames .tagStart
  else if char ∈ punctuation then some ([.mark char], ⟨.code (char = '('), frames⟩)
  else none

def stepLiteral (frames : List Frame) (quote : Char) (value : List Char) (char : Char) :
    Option (List Token × State) :=
  if char = quote then some ([.literal (String.ofList value)], ⟨.code false, frames⟩)
  else if char = '\\' then goTo frames (.backslash quote value)
  -- The separators of lines and paragraphs beyond ASCII may stand in a literal.
  else if char = '\n' ∨ char = '\r' then none
  else goTo frames (.literal quote (value ++ [char]))

def stepBackslash (frames : List Frame) (quote : Char) (value : List Char) (char : Char) :
    Option (List Token × State) :=
  if char = 'u' then goTo frames (.digits quote value 0 3)
  else if char = 'x' then goTo frames (.digits quote value 0 1)
  else (escaped? char).bind fun meant => goTo frames (.literal quote (value ++ [meant]))

/-- A digit of an escape. Half of a surrogate pair is refused. -/
def stepDigits (frames : List Frame) (quote : Char) (value : List Char) (code more : Nat)
    (char : Char) : Option (List Token × State) :=
  (hexValue? char).bind fun digit =>
    match more with
    | more + 1 => goTo frames (.digits quote value (16 * code + digit) more)
    | 0 =>
        if (16 * code + digit).isValidChar then
          goTo frames (.literal quote (value ++ [Char.ofNat (16 * code + digit)]))
        else none

def stepInside (frames : List Frame) (char : Char) : Option (List Token × State) :=
  if char = '<' then goTo frames .tagStart
  else if char = '\x7b' then some ([.mark char], ⟨.code false, .braces :: frames⟩)
  else if char = '>' ∨ char = '\x7d' ∨ char = '&' then none
  else some ([.char char], ⟨.inside, frames⟩)

/-- A step outside of attributes, or behind the name of the tag. -/
def stepTag (frames : List Frame) (tag : Tag) (char : Char) : Option (List Token × State) :=
  if isBlank char then goTo frames (.tag tag)
  else if char.isAlpha then goTo frames (.key tag [char])
  else if char = '>' then
    some ([.opens tag.name tag.attributes], ⟨.inside, .element tag.name :: frames⟩)
  else none

/-- A step in a tag that ends an element, which has to be the innermost one. -/
def stepClosing (frames : List Frame) (letters : List Char) (char : Char) :
    Option (List Token × State) :=
  if char.isAlphanum then goTo frames (.closing (letters ++ [char]))
  else if char = '>' ∧ frames.head? = some (.element (String.ofList letters)) then
    some ([.closes (String.ofList letters)], ⟨resumed frames.tail, frames.tail⟩)
  else none

def stepValue (frames : List Frame) (tag : Tag) (key : String) (value : List Char)
    (char : Char) : Option (List Token × State) :=
  if char = '"' then goTo frames (.tag (tag.push key (String.ofList value)))
  else if char = '&' then goTo frames (.entity tag key value [])
  else goTo frames (.value tag key (value ++ [char]))

def stepEntity (frames : List Frame) (tag : Tag) (key : String) (value letters : List Char)
    (char : Char) : Option (List Token × State) :=
  if char = ';' then
    (Markup.Reader.named? letters).bind fun meant =>
      goTo frames (.value tag key (value ++ [meant]))
  else goTo frames (.entity tag key value (letters ++ [char]))

/-- The pieces that end with a character, and where a reader stands behind it. -/
def step (state : State) (char : Char) : Option (List Token × State) :=
  let frames := state.frames
  match state.place with
  | .code behindParenthesis => stepCode frames behindParenthesis char
  | .word letters =>
      if char.isAlphanum then goTo frames (.word (letters ++ [char]))
      else
        (stepCode frames false char).map fun (tokens, next) =>
          (.word (String.ofList letters) :: tokens, next)
  | .literal quote value => stepLiteral frames quote value char
  | .backslash quote value => stepBackslash frames quote value char
  | .digits quote value code more => stepDigits frames quote value code more char
  | .inside => stepInside frames char
  | .tagStart =>
      if char = '/' then goTo frames (.closing [])
      else if char.isAlpha then goTo frames (.opening [char])
      else none
  | .closing letters => stepClosing frames letters char
  | .opening letters =>
      if char.isAlphanum then goTo frames (.opening (letters ++ [char]))
      else stepTag frames ⟨String.ofList letters, []⟩ char
  | .tag tag => stepTag frames tag char
  | .key tag letters =>
      if char.isAlpha then goTo frames (.key tag (letters ++ [char]))
      else if char = '=' then goTo frames (.equals tag (String.ofList letters))
      else none
  | .equals tag key => if char = '"' then goTo frames (.value tag key []) else none
  | .value tag key value => stepValue frames tag key value char
  | .entity tag key value letters => stepEntity frames tag key value letters char

def run (state : State) : List Char → Option (List Token × State)
  | [] => some ([], state)
  | char :: rest =>
      (step state char).bind fun (tokens, next) =>
        (run next rest).map fun (more, last) => (tokens ++ more, last)

/-- A whole file, which has to end in code that nothing encloses. -/
def read (text : String) : Option (List Token) :=
  match run {} text.toList with
  | some (tokens, ⟨.code _, []⟩) => some tokens
  | _ => none

/-! ### Runs -/

/-- From one place to another, characters are read as these pieces. -/
def Reads (state : State) (chars : List Char) (tokens : List Token) (next : State) : Prop :=
  run state chars = some (tokens, next)

instance (state : State) (chars : List Char) (tokens : List Token) (next : State) :
    Decidable (Reads state chars tokens next) :=
  inferInstanceAs (Decidable (_ = _))

namespace Reads

variable {state middle last : State} {chars rest : List Char} {tokens more : List Token}

theorem nil : Reads state [] [] state :=
  rfl

theorem cons {char : Char} (steps : step state char = some (tokens, middle))
    (goesOn : Reads middle rest more last) : Reads state (char :: rest) (tokens ++ more) last := by
  unfold Reads at goesOn ⊢
  rw [run, steps]
  change (run middle rest).map _ = _
  rw [goesOn]
  rfl

/-- A step that ends no piece. -/
theorem silent {char : Char} (steps : step state char = some ([], middle))
    (goesOn : Reads middle rest more last) : Reads state (char :: rest) more last :=
  .cons steps goesOn

theorem append (first : Reads state chars tokens middle) (second : Reads middle rest more last) :
    Reads state (chars ++ rest) (tokens ++ more) last := by
  induction chars generalizing state tokens with
  | nil =>
      obtain ⟨rfl, rfl⟩ := Prod.mk.inj (Option.some.inj first)
      exact second
  | cons char chars inductionHypothesis =>
      unfold Reads at first
      rw [run, Option.bind_eq_some_iff] at first
      obtain ⟨⟨here, next⟩, steps, first⟩ := first
      obtain ⟨⟨below, last⟩, runs, first⟩ := Option.map_eq_some_iff.mp first
      obtain ⟨rfl, rfl⟩ := Prod.mk.inj first
      rw [List.cons_append, List.append_assoc]
      exact .cons steps (inductionHypothesis runs)

/-- One character after another is taken up by a place. -/
theorem flatMap {place : List Char → State} {write : Char → List Char}
    (each : ∀ value char, Reads (place value) (write char) [] (place (value ++ [char])))
    (value chars : List Char) :
    Reads (place value) (chars.flatMap write) [] (place (value ++ chars)) := by
  induction chars generalizing value with
  | nil =>
      rw [List.append_nil]
      exact .nil
  | cons char chars inductionHypothesis =>
      have below := inductionHypothesis (value ++ [char])
      rw [List.append_assoc] at below
      exact (each value char).append below

end Reads

theorem read_of_reads {text : String} {tokens : List Token} {behindParenthesis : Bool}
    (reads : Reads {} text.toList tokens ⟨.code behindParenthesis, []⟩) :
    read text = some tokens := by
  unfold Reads at reads
  rw [read, reads]

/-! ### String literals -/

section Literals

variable (frames : List Frame)

/-- The two digits of an escaped control character that are not zero by themselves. -/
theorem hexValue?_hexDigit {code : Nat} (control : code < 32) :
    hexValue? (hexDigit (code / 16)) = some (code / 16) ∧
      hexValue? (hexDigit code) = some (code % 16) := by
  have spelled : ∀ code < 32, hexValue? (hexDigit (code / 16)) = some (code / 16) ∧
      hexValue? (hexDigit code) = some (code % 16) := by
    decide
  exact spelled code control

theorem reads_control (value : List Char) {char : Char} (control : char.toNat < 32) :
    Reads ⟨.digits '"' value 0 1, frames⟩ [hexDigit (char.toNat / 16), hexDigit char.toNat] []
      ⟨.literal '"' (value ++ [char]), frames⟩ := by
  obtain ⟨isHigh, isLow⟩ := hexValue?_hexDigit control
  have high : step ⟨.digits '"' value 0 1, frames⟩ (hexDigit (char.toNat / 16)) =
      some ([], ⟨.digits '"' value (char.toNat / 16) 0, frames⟩) := by
    change stepDigits frames '"' value 0 1 _ = _
    rw [stepDigits, isHigh, Option.bind_some, Nat.mul_zero, Nat.zero_add]
    rfl
  have low : step ⟨.digits '"' value (char.toNat / 16) 0, frames⟩ (hexDigit char.toNat) =
      some ([], ⟨.literal '"' (value ++ [char]), frames⟩) := by
    change stepDigits frames '"' value (char.toNat / 16) 0 _ = _
    rw [stepDigits, isLow, Option.bind_some]
    have valid : char.toNat.isValidChar := char.valid
    change (if (16 * (char.toNat / 16) + char.toNat % 16).isValidChar then _ else none) = _
    rw [Nat.div_add_mod, if_pos valid, Char.ofNat_toNat]
    rfl
  exact .silent high (.silent low .nil)

/-- Each character is denoted by the way it is written in a string literal. -/
theorem reads_escapeChar (value : List Char) (char : Char) :
    Reads ⟨.literal '"' value, frames⟩ (escapeChar char) []
      ⟨.literal '"' (value ++ [char]), frames⟩ := by
  have escaped (letter : Char) (means : escaped? letter = some char) (notCode : letter ≠ 'u')
      (notByte : letter ≠ 'x') :
      Reads ⟨.literal '"' value, frames⟩ ['\\', letter] []
        ⟨.literal '"' (value ++ [char]), frames⟩ := by
    have steps : step ⟨.backslash '"' value, frames⟩ letter =
        some ([], ⟨.literal '"' (value ++ [char]), frames⟩) := by
      change stepBackslash frames '"' value letter = _
      rw [stepBackslash, if_neg notCode, if_neg notByte, means]
      rfl
    exact .silent rfl (.silent steps .nil)
  unfold escapeChar
  split
  · rename_i isQuote
    exact escaped '"' (congrArg some isQuote.symm) (by decide) (by decide)
  split
  · rename_i isBackslash
    exact escaped '\\' (congrArg some isBackslash.symm) (by decide) (by decide)
  split
  · rename_i isBackspace
    exact escaped 'b' (congrArg some isBackspace.symm) (by decide) (by decide)
  split
  · rename_i isFormFeed
    exact escaped 'f' (congrArg some isFormFeed.symm) (by decide) (by decide)
  split
  · rename_i isLineBreak
    exact escaped 'n' (congrArg some isLineBreak.symm) (by decide) (by decide)
  split
  · rename_i isReturn
    exact escaped 'r' (congrArg some isReturn.symm) (by decide) (by decide)
  split
  · rename_i isTab
    exact escaped 't' (congrArg some isTab.symm) (by decide) (by decide)
  split
  · rename_i control
    have digits := reads_control frames value control
    exact .silent rfl (.silent rfl (.silent rfl (.silent rfl digits)))
  · rename_i notQuote notBackslash _ _ notLineBreak notReturn _ _
    have steps : step ⟨.literal '"' value, frames⟩ char =
        some ([], ⟨.literal '"' (value ++ [char]), frames⟩) := by
      change stepLiteral frames '"' value char = _
      rw [stepLiteral, if_neg notQuote, if_neg notBackslash,
        if_neg (not_or.mpr ⟨notLineBreak, notReturn⟩)]
      rfl
    exact .silent steps .nil

theorem reads_stringLiteral (behindParenthesis : Bool) (text : String) :
    Reads ⟨.code behindParenthesis, frames⟩ (stringLiteral text).toList [.literal text]
      ⟨.code false, frames⟩ := by
  have inside := Reads.flatMap (reads_escapeChar frames) [] text.toList
  rw [List.nil_append] at inside
  have ends : step ⟨.literal '"' text.toList, frames⟩ '"' =
      some ([.literal text], ⟨.code false, frames⟩) := by
    change stepLiteral frames '"' text.toList '"' = _
    rw [stepLiteral, if_pos rfl, String.ofList_toList]
  rw [stringLiteral, String.toList_ofList, stringChars]
  exact .silent rfl (inside.append (.cons ends .nil))

end Literals

/-! ### Attribute values -/

section Attributes

variable (frames : List Frame) (tag : Tag) (key : String)

/-- Each character is denoted by the way it is written in the value of an attribute. -/
theorem reads_attributeChar (value : List Char) (char : Char) :
    Reads ⟨.value tag key value, frames⟩ (Markup.Reader.attributeChar char) []
      ⟨.value tag key (value ++ [char]), frames⟩ := by
  unfold Markup.Reader.attributeChar
  split
  · rename_i isAmpersand
    subst isAmpersand
    rfl
  split
  · rename_i isQuote
    subst isQuote
    rfl
  · rename_i notAmpersand notQuote
    have steps : step ⟨.value tag key value, frames⟩ char =
        some ([], ⟨.value tag key (value ++ [char]), frames⟩) := by
      change stepValue frames tag key value char = _
      rw [stepValue, if_neg notQuote, if_neg notAmpersand]
      rfl
    exact .silent steps .nil

theorem reads_escapeAttribute (text : String) :
    Reads ⟨.value tag key [], frames⟩ (Markup.escapeAttribute text.toList) []
      ⟨.value tag key text.toList, frames⟩ := by
  rw [Markup.Reader.escapeAttribute_eq]
  exact Reads.flatMap (reads_attributeChar frames tag key) [] text.toList

end Attributes

end Wireframe.Script
