import Wireframe.Json.Token

/-!
Contract: passing over a value whose content does not matter.

A skipped value is held to the grammar only in outline: numbers need not be in
range, escapes need not name characters, and nesting is not limited, since the
open lists and objects stand on an explicit stack.
-/

namespace Wireframe.Json

namespace Scanner

/-- An open list or object. -/
inductive Frame where
  | list
  | object
deriving DecidableEq

/-- Where in the skipped value the scan stands: before a value, or after the
opening bracket (`fresh`) or an item of the innermost frame. -/
inductive SkipState where
  | value
  | within (fresh : Bool)
  | finished
deriving DecidableEq

def skipExponent : Scanner Failure Unit := do
  eat
  let _ ← exponentSign
  match ← peek with
  | some char =>
      if char.isDigit then
        let _ ← eatWhile Char.isDigit
      else failNext .invalidNumber
  | none => failHere .invalidNumber

def skipNumberTail : Scanner Failure Unit := do
  match ← peek with
  | some '.' =>
      eat
      let digits ← eatWhile Char.isDigit
      if digits.isEmpty then failNext .invalidNumber
      else
        match ← peek with
        | some 'e' | some 'E' => skipExponent
        | _ => pure ()
  | some 'e' | some 'E' => skipExponent
  | _ => pure ()

/-- A skipped number, its sign already read. -/
def skipNumber : Scanner Failure Unit := do
  match ← peek with
  | some '0' =>
      eat
      match ← peek with
      | some char => if char.isDigit then failNext .invalidNumber else skipNumberTail
      | none => pure ()
  | some char =>
      if char.isDigit then
        let _ ← eatWhile Char.isDigit
        skipNumberTail
      else failNext .invalidNumber
  | none => failHere .invalidNumber

/-- One character of a skipped string; `false` at its closing quote. -/
def skipStringChar : Scanner Failure Bool := do
  match ← peek with
  | none => failHere .endInString
  | some '"' => eat; pure false
  | some '\\' =>
      eat
      match ← peek with
      | none => failHere .endInString
      | some 'u' =>
          eat
          let _ ← hexEscape
          pure true
      | some char =>
          if (simpleEscape? char).isSome then
            eat
            pure true
          else failNext .invalidEscape
  | some char =>
      if char.toNat < 32 then failHere .controlCharacter
      else
        eat
        pure true

/-- The rest of a skipped string, up to its closing quote. -/
def skipStringRest : Nat → Scanner Failure Unit
  | 0 => pure ()
  | bound + 1 => do if ← skipStringChar then skipStringRest bound

/-- A skipped string, its opening quote already read. -/
def skipString : Scanner Failure Unit := fun cursor =>
  skipStringRest (cursor.rest.length + 1) cursor

/-- Before a value: a scalar is passed over, a bracket opens a frame. -/
def skipValue (stack : List Frame) : Scanner Failure (List Frame × SkipState) := do
  let afterScalar : List Frame × SkipState :=
    (stack, if stack.isEmpty then .finished else .within false)
  match ← peekToken with
  | none => failNext .endInValue
  | some 'n' => eat; word ['u', 'l', 'l']; pure afterScalar
  | some 't' => eat; word ['r', 'u', 'e']; pure afterScalar
  | some 'f' => eat; word ['a', 'l', 's', 'e']; pure afterScalar
  | some '-' => eat; skipNumber; pure afterScalar
  | some '"' => eat; skipString; pure afterScalar
  | some '[' => eat; pure (.list :: stack, .within true)
  | some '\x7b' => eat; pure (.object :: stack, .within true)
  | some char =>
      if char.isDigit then
        skipNumber
        pure afterScalar
      else failNext .expectedValue

/-- The key of the next member, in an object; nothing in a list. -/
def skipKey : Frame → Scanner Failure Unit
  | .list => pure ()
  | .object => do
      match ← peekToken with
      | some '"' =>
          eat
          skipString
          colon
      | some _ => failNext .keyNotString
      | none => failNext .endInObject

/-- Inside a frame: its end, or a separator and the start of the next item. -/
def skipWithin (frame : Frame) (outer : List Frame) (fresh : Bool) :
    Scanner Failure (List Frame × SkipState) := do
  let ended : List Frame × SkipState :=
    (outer, if outer.isEmpty then .finished else .within false)
  let next : Scanner Failure (List Frame × SkipState) := do
    skipKey frame
    pure (frame :: outer, .value)
  match ← peekToken, frame with
  | some ']', .list => eat; pure ended
  | some '\x7d', .object => eat; pure ended
  | some char, _ =>
      if fresh then next
      else if char = ',' then
        eat
        next
      else
        match frame with
        | .list => failNext .expectedListCommaOrEnd
        | .object => failNext .expectedObjectCommaOrEnd
  | none, .list => failNext .endInList
  | none, .object => failNext .endInObject

def skipRun : Nat → List Frame → SkipState → Scanner Failure Unit
  | 0, _, _ => pure ()
  | bound + 1, stack, state => do
      match state, stack with
      | .finished, _ => pure ()
      | .value, _ =>
          let (stack, state) ← skipValue stack
          skipRun bound stack state
      | .within _, [] => pure ()
      | .within fresh, frame :: outer =>
          let (stack, state) ← skipWithin frame outer fresh
          skipRun bound stack state

/-- Passes over one value. Every second step consumes a character. -/
def skip : Scanner Failure Unit := fun cursor =>
  skipRun (2 * cursor.rest.length + 2) [] .value cursor

end Scanner

end Wireframe.Json
