import Wireframe.Json.Token

/-!
Contract: how a style sheet is read.

Owns:
- `Lexer`, where a reader stands: in which brackets, and in which comment, string, address
  or escape;
- `Reading`, a text cut at the semicolons and braces that stand in none of these;
- `read`, a sheet of statements and of blocks of declarations.

A sheet with blocks inside of blocks, or one that ends in the middle of something, is not
read.
-/

namespace Wireframe.Sheet

def isBreak (char : Char) : Bool :=
  char == '\n' || char == '\r' || char == '\x0c'

def isBlank (char : Char) : Bool :=
  char == ' ' || char == '\t' || isBreak char

/-- The characters of names: letters, digits, hyphens, underscores, all beyond ASCII, and the
null character, which stands for one of these. -/
def isNamePart (char : Char) : Bool :=
  char.isAlphanum || char == '-' || char == '_' || char == '\x00' || decide (128 ≤ char.toNat)

def isQuote (char : Char) : Bool :=
  char == '"' || char == '\x27'

/-- What a reader is in the middle of. -/
inductive Place where
  /-- The plain text of the sheet, behind these characters of a name, the last one first. -/
  | plain (name : List Char)
  /-- Behind a slash, which a star makes a comment. -/
  | slash
  | comment
  /-- Behind a star in a comment. -/
  | star
  | quoted (quote : Char)
  /-- Behind the bracket of an address, which a quote makes a usual one. -/
  | opening
  | address
deriving DecidableEq

/-- How much of an escape has been read. -/
inductive Escape where
  | none
  | backslash
  /-- Hexadecimal digits, of which there are six at most. -/
  | code (value digits : Nat)
  /-- A carriage return that belongs to the escape, as a line feed behind it does. -/
  | carriage
deriving DecidableEq

/-- Where a reader stands. -/
structure Lexer where
  /-- The closing brackets that are awaited, the innermost first. -/
  opened : List Char := []
  place : Place := .plain []
  escape : Escape := .none
deriving DecidableEq

/-- An escaped character may be part of a name. Names of functions are compared in lower
case. -/
def Place.escaped (char : Char) : Place → Place
  | .plain name => .plain (char.toLower :: name)
  | place => place

namespace Lexer

/-- The brackets that are awaited behind a closing one. It is ignored if it closes none. -/
def close (char : Char) : List Char → List Char
  | [] => []
  | awaited :: rest => if awaited = char then rest else awaited :: rest

/-- The name of the function whose argument may be an address, the last character first. -/
def addressName : List Char := ['l', 'r', 'u']

def stepPlain (opened name : List Char) (char : Char) : Lexer :=
  if char = '/' then { opened, place := .slash }
  else if isQuote char then { opened, place := .quoted char }
  else if char = '\\' then { opened, place := .plain name, escape := .backslash }
  else if char = '(' then
    { opened := ')' :: opened, place := if name = addressName then .opening else .plain [] }
  else if char = '[' then { opened := ']' :: opened }
  else if char = '\x7b' then { opened := '\x7d' :: opened }
  else if char = ')' ∨ char = ']' ∨ char = '\x7d' then { opened := close char opened }
  else if char = '#' ∨ char = '@' then { opened, place := .plain [char] }
  else if isNamePart char then { opened, place := .plain (char.toLower :: name) }
  else { opened }

def stepAddress (opened : List Char) (char : Char) : Lexer :=
  if char = ')' then { opened := close ')' opened }
  else { opened, place := .address, escape := if char = '\\' then .backslash else .none }

/-- A step that is not escaped. -/
def stepPlace (opened : List Char) (place : Place) (char : Char) : Lexer :=
  match place with
  | .plain name => stepPlain opened name char
  | .slash => if char = '*' then { opened, place := .comment } else stepPlain opened [] char
  | .comment => { opened, place := if char = '*' then .star else .comment }
  | .star =>
      if char = '/' then { opened }
      else { opened, place := if char = '*' then .star else .comment }
  | .quoted quote =>
      -- A line break ends a string that is not closed.
      if char = quote ∨ isBreak char then { opened }
      else { opened, place, escape := if char = '\\' then .backslash else .none }
  | .opening =>
      if isBlank char then { opened, place }
      else if isQuote char then { opened, place := .quoted char }
      else stepAddress opened char
  | .address => stepAddress opened char

/-- A line break behind a backslash: no escape in plain text, and a continued line in a
string. -/
def stepBreak (opened : List Char) (place : Place) (char : Char) : Lexer :=
  match place with
  | .plain _ => { opened }
  | place => { opened, place, escape := if char = '\r' then .carriage else .none }

/-- The step behind a whole escape of digits, which takes one blank with it. -/
def stepBehind (opened : List Char) (place : Place) (char : Char) : Lexer :=
  if isBlank char then { opened, place, escape := if char = '\r' then .carriage else .none }
  else stepPlace opened place char

def step (lexer : Lexer) (char : Char) : Lexer :=
  match lexer.escape with
  | .none => stepPlace lexer.opened lexer.place char
  | .backslash =>
      if isBreak char then stepBreak lexer.opened lexer.place char
      else
        match Json.hexValue? char with
        | some digit => { lexer with escape := .code digit 1 }
        | none => { lexer with place := lexer.place.escaped char, escape := .none }
  | .code value digits =>
      match if digits < 6 then Json.hexValue? char else none with
      | some digit => { lexer with escape := .code (16 * value + digit) (digits + 1) }
      | none => stepBehind lexer.opened (lexer.place.escaped (Char.ofNat value)) char
  | .carriage =>
      if char = '\n' then { lexer with escape := .none }
      else stepPlace lexer.opened lexer.place char

def run (lexer : Lexer) (chars : List Char) : Lexer :=
  chars.foldl step lexer

/-- Whether a semicolon or a brace that comes next would end what stands before it. -/
def atRest (lexer : Lexer) : Bool :=
  (match lexer.place with
    | .plain _ | .slash => lexer.escape != .backslash
    | _ => false) &&
  lexer.opened.all (· == '\x7d')

end Lexer

/-! ### Cuts -/

/-- The characters at which a sheet is cut. -/
inductive Mark where
  | semicolon
  | opening
  | closing
deriving DecidableEq

def Mark.ofChar? (char : Char) : Option Mark :=
  if char = ';' then some .semicolon
  else if char = '\x7b' then some .opening
  else if char = '\x7d' then some .closing
  else none

/-- The pieces of a text, each with the mark that ends it, and the text behind the last
mark. -/
structure Reading where
  lexer : Lexer := {}
  text : List Char := []
  pieces : List (List Char × Mark) := []
deriving DecidableEq

namespace Reading

/-- The mark that a character is where a reading stands. -/
def cut? (reading : Reading) (char : Char) : Option Mark :=
  if reading.lexer.atRest then Mark.ofChar? char else none

def step (reading : Reading) (char : Char) : Reading :=
  match reading.cut? char with
  | some mark => ⟨reading.lexer.step char, [], reading.pieces ++ [(reading.text, mark)]⟩
  | none => ⟨reading.lexer.step char, reading.text ++ [char], reading.pieces⟩

def run (reading : Reading) (chars : List Char) : Reading :=
  chars.foldl step reading

end Reading

/-! ### Rules -/

/-- A declaration; its value is all that stands behind the colon. -/
structure Declaration where
  name : String
  value : String
deriving DecidableEq

inductive Rule where
  | statement (text : String)
  | block (selector : String) (declarations : List Declaration)
deriving DecidableEq

def trim (chars : List Char) : String :=
  String.ofList ((chars.dropWhile isBlank).reverse.dropWhile isBlank).reverse

def declaration? (chars : List Char) : Option Declaration :=
  match chars.dropWhile (· ≠ ':') with
  | [] => none
  | _ :: value => some ⟨trim (chars.takeWhile (· ≠ ':')), String.ofList value⟩

/-- Only what starts so is ended by a semicolon outside of blocks. -/
def isStatement (chars : List Char) : Bool :=
  (chars.dropWhile isBlank).head? == some '@'

/-- The rules of some pieces, the first of which may stand in a block that has begun. A
declaration need not be ended where its block is. -/
def rules? : Option (String × List Declaration) → List (List Char × Mark) → Option (List Rule)
  | none, [] => some []
  | none, (text, .semicolon) :: rest =>
      if isStatement text then (rules? none rest).map (.statement (trim text) :: ·) else none
  | none, (text, .opening) :: rest => rules? (some (trim text, [])) rest
  | some (selector, earlier), (text, .semicolon) :: rest =>
      (declaration? text).bind fun declaration =>
        rules? (some (selector, earlier ++ [declaration])) rest
  | some (selector, earlier), (text, .closing) :: rest =>
      if text.all isBlank then (rules? none rest).map (.block selector earlier :: ·)
      else
        (declaration? text).bind fun declaration =>
          (rules? none rest).map (.block selector (earlier ++ [declaration]) :: ·)
  | _, _ => none

/-- The rules of a whole sheet. -/
def read (text : String) : Option (List Rule) :=
  let reading := Reading.run {} text.toList
  if reading.lexer.atRest && reading.lexer.opened.isEmpty && reading.text.all isBlank then
    rules? none reading.pieces
  else none

/-! ### Brackets -/

namespace Lexer

/-- What a step can do to the brackets. Only a brace awaits a brace. -/
inductive Brackets (char : Char) (before : List Char) : List Char → Prop
  | same : Brackets char before before
  | opens {closing : Char} (only : closing = '\x7d' → char = '\x7b') :
      Brackets char before (closing :: before)
  | closes : Brackets char before (close char before)

section Steps

variable {char : Char} {opened : List Char}

theorem brackets_stepPlain (name : List Char) :
    Brackets char opened (stepPlain opened name char).opened := by
  unfold stepPlain
  split
  · exact .same
  split
  · exact .same
  split
  · exact .same
  split
  · exact .opens fun isBrace => absurd isBrace (by decide)
  split
  · exact .opens fun isBrace => absurd isBrace (by decide)
  split
  · exact .opens fun _ => ‹_›
  split
  · exact .closes
  split
  · exact .same
  split <;> exact .same

theorem brackets_stepAddress : Brackets char opened (stepAddress opened char).opened := by
  unfold stepAddress
  split
  · rename_i isClosing
    rw [isClosing]
    exact .closes
  · exact .same

theorem brackets_stepPlace (place : Place) :
    Brackets char opened (stepPlace opened place char).opened := by
  cases place with
  | plain name => exact brackets_stepPlain name
  | slash =>
      simp only [stepPlace]
      split
      · exact .same
      · exact brackets_stepPlain []
  | comment => exact .same
  | star =>
      simp only [stepPlace]
      split <;> exact .same
  | quoted quote =>
      simp only [stepPlace]
      split <;> exact .same
  | opening =>
      simp only [stepPlace]
      split
      · exact .same
      · split
        · exact .same
        · exact brackets_stepAddress
  | address => exact brackets_stepAddress

theorem brackets_stepBehind (place : Place) :
    Brackets char opened (stepBehind opened place char).opened := by
  unfold stepBehind
  split
  · exact .same
  · exact brackets_stepPlace place

theorem brackets_step (lexer : Lexer) (char : Char) :
    Brackets char lexer.opened (lexer.step char).opened := by
  obtain ⟨opened, place, escape⟩ := lexer
  cases escape with
  | none => exact brackets_stepPlace place
  | backslash =>
      simp only [step]
      split
      · cases place <;> exact .same
      · split <;> exact .same
  | code value digits =>
      simp only [step]
      split
      · exact .same
      · exact brackets_stepBehind _
  | carriage =>
      simp only [step]
      split
      · exact .same
      · exact brackets_stepPlace place

end Steps

/-! ### Values in a block -/

/-- One brace is open, around any other brackets. -/
def InBlock (lexer : Lexer) : Prop :=
  ∃ inner, lexer.opened = inner ++ ['\x7d'] ∧ '\x7d' ∉ inner

/-- The lexer in a block, outside of everything else. -/
def blockStart : Lexer where
  opened := ['\x7d']

theorem inBlock_blockStart : blockStart.InBlock :=
  ⟨[], rfl, List.not_mem_nil⟩

section InBlock

variable {lexer : Lexer} {char : Char} {chars : List Char}

theorem close_of_ne {inner : List Char} (notBrace : char ≠ '\x7d') (noBrace : '\x7d' ∉ inner) :
    ∃ left, close char (inner ++ ['\x7d']) = left ++ ['\x7d'] ∧ '\x7d' ∉ left := by
  cases inner with
  | nil => exact ⟨[], if_neg notBrace.symm, noBrace⟩
  | cons awaited rest =>
      rw [List.cons_append, close]
      by_cases closes : awaited = char
      · exact ⟨rest, if_pos closes, fun isMember => noBrace (List.mem_cons_of_mem _ isMember)⟩
      · exact ⟨awaited :: rest, if_neg closes, noBrace⟩

/-- No other character than a brace ends the block or starts one in it. -/
theorem InBlock.step (inBlock : lexer.InBlock) (unmarked : Mark.ofChar? char = none) :
    (lexer.step char).InBlock := by
  obtain ⟨inner, isOpened, noBrace⟩ := inBlock
  have brackets := brackets_step lexer char
  rw [isOpened] at brackets
  unfold InBlock
  generalize (lexer.step char).opened = after at brackets ⊢
  cases brackets with
  | same => exact ⟨inner, rfl, noBrace⟩
  | @opens closing only =>
      have notBrace : '\x7d' ≠ closing := by
        rintro rfl
        rw [only rfl] at unmarked
        exact absurd unmarked (by decide)
      exact ⟨closing :: inner, rfl, List.not_mem_cons_of_ne_of_not_mem notBrace noBrace⟩
  | closes =>
      refine close_of_ne ?_ noBrace
      rintro rfl
      exact absurd unmarked (by decide)

theorem InBlock.run (inBlock : lexer.InBlock)
    (unmarked : ∀ char ∈ chars, Mark.ofChar? char = none) : (lexer.run chars).InBlock := by
  induction chars generalizing lexer with
  | nil => exact inBlock
  | cons char rest inductionHypothesis =>
      obtain ⟨first, others⟩ := List.forall_mem_cons.mp unmarked
      exact inductionHypothesis (inBlock.step first) others

theorem InBlock.opened_of_atRest (inBlock : lexer.InBlock) (rests : lexer.atRest = true) :
    lexer.opened = ['\x7d'] := by
  obtain ⟨inner, isOpened, noBrace⟩ := inBlock
  have onlyBraces := (Bool.and_eq_true_iff.mp rests).2
  rw [isOpened, List.all_append, Bool.and_eq_true_iff, List.all_eq_true] at onlyBraces
  cases inner with
  | nil => exact isOpened
  | cons awaited rest =>
      have isBrace := beq_iff_eq.mp (onlyBraces.1 awaited List.mem_cons_self)
      exact absurd (isBrace ▸ List.mem_cons_self) noBrace

/-- At rest a semicolon ends every name and escape. -/
theorem step_semicolon (rests : lexer.atRest = true) :
    lexer.step ';' = { opened := lexer.opened } := by
  have isPlain := (Bool.and_eq_true_iff.mp rests).1
  obtain ⟨opened, place, escape⟩ := lexer
  cases place with
  | plain | slash =>
      cases escape with
      | backslash => exact absurd isPlain (by simp)
      | code value digits =>
          have noDigit : (if digits < 6 then Json.hexValue? ';' else none) = none := ite_self _
          simp only [step, noDigit]
          rfl
      | _ => rfl
  | _ => exact absurd isPlain Bool.false_ne_true

end InBlock

end Lexer

/-! ### Readings -/

namespace Reading

variable {reading : Reading} {char : Char} {chars : List Char}

theorem run_append (reading : Reading) (first second : List Char) :
    reading.run (first ++ second) = (reading.run first).run second :=
  List.foldl_append

theorem step_of_cut {mark : Mark} (cuts : reading.cut? char = some mark) :
    reading.step char =
      ⟨reading.lexer.step char, [], reading.pieces ++ [(reading.text, mark)]⟩ := by
  rw [step, cuts]

theorem step_of_not_cut (goesOn : reading.cut? char = none) :
    reading.step char = ⟨reading.lexer.step char, reading.text ++ [char], reading.pieces⟩ := by
  rw [step, goesOn]

/-- Text without a mark only moves the lexer. -/
theorem run_of_unmarked (unmarked : ∀ char ∈ chars, Mark.ofChar? char = none) :
    reading.run chars = ⟨reading.lexer.run chars, reading.text ++ chars, reading.pieces⟩ := by
  induction chars generalizing reading with
  | nil =>
      rw [List.append_nil]
      rfl
  | cons char rest inductionHypothesis =>
      obtain ⟨first, others⟩ := List.forall_mem_cons.mp unmarked
      have goesOn : reading.cut? char = none := by
        rw [cut?, first, ite_self]
      change (reading.step char).run rest = _
      rw [inductionHypothesis others, step_of_not_cut goesOn, List.append_assoc]
      rfl

/-- A reading with other pieces in front of its own. -/
def behind (pieces : List (List Char × Mark)) (reading : Reading) : Reading :=
  { reading with pieces := pieces ++ reading.pieces }

theorem step_behind (pieces : List (List Char × Mark)) (reading : Reading) (char : Char) :
    (reading.behind pieces).step char = (reading.step char).behind pieces := by
  cases cuts : reading.cut? char with
  | some mark =>
      have cutsBehind : (reading.behind pieces).cut? char = some mark := cuts
      rw [step_of_cut cuts, step_of_cut cutsBehind, behind, behind, List.append_assoc]
  | none =>
      have goesOn : (reading.behind pieces).cut? char = none := cuts
      rw [step_of_not_cut cuts, step_of_not_cut goesOn]
      rfl

/-- Pieces that were cut before stay where they are. -/
theorem run_behind (pieces : List (List Char × Mark)) (reading : Reading) (chars : List Char) :
    (reading.behind pieces).run chars = (reading.run chars).behind pieces := by
  induction chars generalizing reading with
  | nil => rfl
  | cons char rest inductionHypothesis =>
      change ((reading.behind pieces).step char).run rest = _
      rw [step_behind, inductionHypothesis]
      rfl

/-- Text that has been read stays in front of the next mark. -/
theorem exists_piece (reading : Reading) (chars : List Char) :
    (reading.run chars).pieces = reading.pieces ∨
      ∃ text mark more, (reading.run chars).pieces = reading.pieces ++ (text, mark) :: more ∧
        reading.text <+: text := by
  induction chars generalizing reading with
  | nil => exact Or.inl rfl
  | cons char rest inductionHypothesis =>
      change ((reading.step char).run rest).pieces = _ ∨ ∃ text mark more,
        ((reading.step char).run rest).pieces = _ ∧ _
      have next := inductionHypothesis (reading.step char)
      cases cuts : reading.cut? char with
      | some mark =>
          rw [step_of_cut cuts] at next ⊢
          rcases next with noMore | ⟨text, later, more, isMore, -⟩
          · exact Or.inr ⟨reading.text, mark, [], noMore, List.prefix_rfl⟩
          · rw [isMore]
            exact Or.inr ⟨reading.text, mark, (text, later) :: more, List.append_assoc _ _ _,
              List.prefix_rfl⟩
      | none =>
          rw [step_of_not_cut cuts] at next ⊢
          rcases next with noMore | ⟨text, later, more, isMore, inFront⟩
          · exact Or.inl noMore
          · exact Or.inr ⟨text, later, more, isMore, (List.prefix_append _ _).trans inFront⟩

end Reading

/-! ### Declarations -/

theorem declaration?_of_colon {name : List Char} (noColon : ':' ∉ name) (value : List Char) :
    declaration? (name ++ ':' :: value) = some ⟨trim name, String.ofList value⟩ := by
  have notColon : ∀ char ∈ name, decide (char ≠ ':') = true := by
    intro char isMember
    exact decide_eq_true fun isColon => noColon (isColon ▸ isMember)
  unfold declaration?
  rw [List.dropWhile_append_of_pos notColon, List.takeWhile_append_of_pos notColon]
  simp

/-- A block that has begun keeps its declarations. -/
theorem exists_block_of_rules? {selector : String} {first : Declaration}
    {earlier : List Declaration} {pieces : List (List Char × Mark)} {rules : List Rule}
    (reads : rules? (some (selector, first :: earlier)) pieces = some rules) :
    ∃ later others, rules = .block selector (first :: later) :: others := by
  induction pieces generalizing earlier with
  | nil => exact absurd reads nofun
  | cons piece rest inductionHypothesis =>
      obtain ⟨text, mark⟩ := piece
      cases mark with
      | semicolon =>
          rw [rules?, Option.bind_eq_some_iff] at reads
          obtain ⟨declaration, -, reads⟩ := reads
          exact inductionHypothesis reads
      | closing =>
          rw [rules?] at reads
          split at reads
          · obtain ⟨others, -, rfl⟩ := Option.map_eq_some_iff.mp reads
            exact ⟨earlier, others, rfl⟩
          · obtain ⟨declaration, -, reads⟩ := Option.bind_eq_some_iff.mp reads
            obtain ⟨others, -, rfl⟩ := Option.map_eq_some_iff.mp reads
            exact ⟨earlier ++ [declaration], others, rfl⟩
      | opening => exact absurd reads nofun

end Wireframe.Sheet
