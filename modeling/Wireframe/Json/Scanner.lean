import Wireframe.Json.Fault

/-!
Contract: reading JSON text from left to right.

Owns:
- `Cursor`, what is left of the text and how many bytes precede it;
- `Scanner`, a step over the text that yields a value or stops;
- blanks, fixed words, and the separators of lists and objects.

A stop is reported either at the cursor or just past the next byte.
-/

namespace Wireframe.Json

def byteLength (chars : List Char) : Nat :=
  chars.foldl (fun total char => total + char.utf8Size) 0

/-- The rest of a text and the number of bytes before it. -/
structure Cursor where
  rest : List Char
  offset : Nat
deriving DecidableEq

namespace Cursor

def start (text : String) : Cursor := ⟨text.toList, 0⟩

/-- The offset just past the next byte, or of the end. -/
def nextOffset (cursor : Cursor) : Nat :=
  match cursor.rest with
  | [] => cursor.offset
  | _ :: _ => cursor.offset + 1

def advance (cursor : Cursor) : Cursor :=
  match cursor.rest with
  | [] => cursor
  | char :: rest => ⟨rest, cursor.offset + char.utf8Size⟩

end Cursor

/-- The characters that may stand between tokens. -/
def isBlank (char : Char) : Bool :=
  char = ' ' || char = '\n' || char = '\t' || char = '\r'

/-- Reads from a cursor; what stops it is an `ε`. -/
abbrev Scanner (ε α : Type) := StateT Cursor (Except ε) α

namespace Scanner

def mapFailure {ε φ α : Type} (convert : ε → φ) (scanner : Scanner ε α) : Scanner φ α :=
  fun cursor => (scanner cursor).mapError convert

def failHere {α : Type} (fault : Fault) : Scanner Failure α :=
  fun cursor => .error ⟨fault, cursor.offset⟩

def failNext {α : Type} (fault : Fault) : Scanner Failure α :=
  fun cursor => .error ⟨fault, cursor.nextOffset⟩

/-- The next character, which is not consumed. -/
def peek {ε : Type} : Scanner ε (Option Char) :=
  fun cursor => .ok (cursor.rest.head?, cursor)

def eat {ε : Type} : Scanner ε Unit :=
  fun cursor => .ok ((), cursor.advance)

/-- Consumes the characters that satisfy a test, as far as they go. -/
def eatWhile {ε : Type} (test : Char → Bool) : Scanner ε (List Char) :=
  fun cursor =>
    let taken := cursor.rest.takeWhile test
    .ok (taken, ⟨cursor.rest.dropWhile test, cursor.offset + byteLength taken⟩)

def peekToken {ε : Type} : Scanner ε (Option Char) := do
  let _ ← eatWhile isBlank
  peek

/-- Consumes the given characters, the rest of a fixed word. -/
def word : List Char → Scanner Failure Unit
  | [] => pure ()
  | expected :: rest => do
      match ← peek with
      | none => failHere .endInValue
      | some char =>
          if char = expected then
            eat
            word rest
          else failNext .expectedWord

/-- Whether a list goes on; a separating comma is consumed. -/
def listContinues (first : Bool) : Scanner Failure Bool := do
  match ← peekToken with
  | none => failNext .endInList
  | some ']' => pure false
  | some char =>
      if first then pure true
      else if char = ',' then
        eat
        match ← peekToken with
        | none => failNext .endInValue
        | some ']' => failNext .trailingComma
        | some _ => pure true
      else failNext .expectedListCommaOrEnd

/-- Whether an object goes on with a key; a separating comma is consumed. -/
def objectContinues (first : Bool) : Scanner Failure Bool := do
  match ← peekToken with
  | none => failNext .endInObject
  | some '\x7d' => pure false
  | some char =>
      if first then
        if char = '"' then pure true else failNext .keyNotString
      else if char = ',' then
        eat
        match ← peekToken with
        | none => failNext .endInValue
        | some '"' => pure true
        | some '\x7d' => failNext .trailingComma
        | some _ => failNext .keyNotString
      else failNext .expectedObjectCommaOrEnd

def colon : Scanner Failure Unit := do
  match ← peekToken with
  | some ':' => eat
  | some _ => failNext .expectedColon
  | none => failNext .endInObject

/-- The end of a list, after its last item. -/
def listEnd : Scanner Failure Unit := do
  match ← peekToken with
  | some ']' => eat
  | some ',' =>
      eat
      match ← peekToken with
      | some ']' => failNext .trailingComma
      | _ => failNext .trailingCharacters
  | some _ => failNext .trailingCharacters
  | none => failNext .endInList

/-- The end of an object, after its last member. -/
def objectEnd : Scanner Failure Unit := do
  match ← peekToken with
  | some '\x7d' => eat
  | some ',' => failNext .trailingComma
  | some _ => failNext .trailingCharacters
  | none => failNext .endInObject

def textEnd : Scanner Failure Unit := do
  match ← peekToken with
  | none => pure ()
  | some _ => failNext .trailingCharacters

/-- Repeats a step until it yields nothing. The step is told whether it is the
first; the bound is never reached where every step consumes a character. -/
def collect {ε α : Type} (step : Bool → Scanner ε (Option α)) :
    Nat → Bool → Scanner ε (List α)
  | 0, _ => pure []
  | bound + 1, first => do
      match ← step first with
      | none => pure []
      | some item =>
          let rest ← collect step bound false
          pure (item :: rest)

/-- Repeats a step until it yields nothing or the text is used up. -/
def collectAll {ε α : Type} (step : Bool → Scanner ε (Option α)) : Scanner ε (List α) :=
  fun cursor => collect step (cursor.rest.length + 1) true cursor

end Scanner

end Wireframe.Json
