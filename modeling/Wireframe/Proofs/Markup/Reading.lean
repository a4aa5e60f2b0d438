import Wireframe.Json.Token
import Wireframe.Proofs.Markup.Rules

/-!
Contract: how markup is read, whatever wrote it.

Owns:
- entities, names, numbers, quoted values, style expressions and tags;
- `tokens?`, a text as its tags and the characters outside of them;
- `isElement`, that the tags are closed in the order of their nesting and that one
  element is all there is.

Whatever departs from this form is refused, and so is an angle bracket or a brace that
stands as it is outside of tags.

Does not own: that the text of a lowered tree is read as that tree.
-/

namespace Wireframe.Markup

open Json Number

/-- A piece of markup as it is read. -/
inductive Token where
  | opens (tag : String) (attributes : List Attribute)
  /-- A tag that closes itself. -/
  | alone (tag : String) (attributes : List Attribute)
  | closes (tag : String)
  /-- A character outside of tags. -/
  | char (char : Char)

/-! ### Readers -/

namespace Reader

open Scanner

def refuse {α : Type} : Scanner Failure α :=
  failNext .expectedValue

/-- The character that a name between an ampersand and a semicolon stands for. -/
def named? (letters : List Char) : Option Char :=
  if letters = "amp".toList then some '&'
  else if letters = "lt".toList then some '<'
  else if letters = "gt".toList then some '>'
  else if letters = "quot".toList then some '"'
  else if letters = "#123".toList then some '\x7b'
  else if letters = "#125".toList then some '\x7d'
  else none

/-- The character of an entity, its ampersand already read. -/
def entity : Scanner Failure Char := do
  let letters ← eatWhile (· != ';')
  word [';']
  match named? letters with
  | some char => pure char
  | none => refuse

def name : Scanner Failure String := do
  let chars ← eatWhile isNameChar
  if isName chars then pure (String.ofList chars) else refuse

/-- Whether a minus stands before a number. -/
def minus : Scanner Failure Bool := do
  let next ← peek
  if next = some '-' then
    eat
    pure true
  else pure false

/-- The number nearest to what digits with a point among them say. -/
def number : Scanner Failure Binary64 := do
  let negative ← minus
  let whole ← wholeDigits
  let fraction := (← fractionDigits).getD []
  let digits := whole ++ fraction
  match Binary64.ofDecimal? negative (ofDigits digits) digits.length (-fraction.length) with
  | some number => pure number
  | none => refuse

/-- A string literal, or a number. -/
def styleValue : Scanner Failure StyleValue := do
  let next ← peek
  if next = some '"' then
    eat
    let text ← string
    pure (.text text)
  else
    let value ← number
    pure (.number value)

/-- A comma before all properties but the first. -/
def propertySeparator : Bool → Scanner Failure Unit
  | true => pure ()
  | false => do
      word [',']
      let _ ← peekToken

def keyedValue : Scanner Failure (String × StyleValue) := do
  let key ← name
  colon
  let _ ← peekToken
  let value ← styleValue
  pure (key, value)

/-- A style property; nothing before the braces that end them. -/
def property (first : Bool) : Scanner Failure (Option (String × StyleValue)) := do
  let next ← peekToken
  if next = some '\x7d' then pure none
  else
    propertySeparator first
    let member ← keyedValue
    pure (some member)

/-- A character of a quoted value; nothing at the closing quote. -/
def quotedChar : Scanner Failure (Option Char) := do
  match ← peek with
  | none => refuse
  | some char =>
      eat
      if char = '"' then pure none
      else if char = '&' then
        let meaning ← entity
        pure (some meaning)
      else pure (some char)

/-- The value of an attribute, its equals sign already read: a text between quotes or,
for the style alone, properties between double braces. -/
def attributeValue (key : String) : Scanner Failure Attribute := do
  let next ← peek
  if next = some '"' then
    eat
    let chars ← collectAll fun _ => quotedChar
    pure (.quoted key (String.ofList chars))
  else if key = "style" then
    word ['\x7b', '\x7b']
    let properties ← collectAll property
    word ['\x7d', '\x7d']
    pure (.style properties)
  else refuse

/-- An attribute; nothing before the end of its tag. -/
def tagAttribute : Scanner Failure (Option Attribute) := do
  let next ← peekToken
  if next = some '/' ∨ next = some '>' then pure none
  else
    let key ← name
    word ['=']
    let value ← attributeValue key
    pure (some value)

/-- The end of a tag that starts an element. -/
def tagEnd (key : String) (attributes : List Attribute) : Scanner Failure Token := do
  let next ← peek
  if next = some '/' then
    word ['/', '>']
    pure (.alone key attributes)
  else
    word ['>']
    pure (.opens key attributes)

/-- A tag, its opening bracket already read. -/
def tag : Scanner Failure Token := do
  let next ← peek
  if next = some '/' then
    eat
    let key ← name
    word ['>']
    pure (.closes key)
  else
    let key ← name
    let attributes ← collectAll fun _ => tagAttribute
    tagEnd key attributes

/-- A tag or a character; nothing at the end of the text. -/
def token : Scanner Failure (Option Token) := do
  match ← peek with
  | none => pure none
  | some char =>
      eat
      if char = '<' then
        let tag ← tag
        pure (some tag)
      else if char = '&' then
        let meaning ← entity
        pure (some (.char meaning))
      else if char = '>' ∨ char = '\x7b' ∨ char = '\x7d' then refuse
      else pure (some (.char char))

end Reader

/-- A whole text as its tags and the characters between them. -/
def tokens? (markup : List Char) : Option (List Token) :=
  match Scanner.collectAll (fun _ => Reader.token) ⟨markup, 0⟩ with
  | .ok (tokens, ⟨[], _⟩) => some tokens
  | _ => none

/-! ### Nesting -/

namespace Token

/-- Whether an element starts here. -/
def starts : Token → Bool
  | .opens _ _ | .alone _ _ => true
  | .closes _ | .char _ => false

end Token

/-- Each of the open tags is closed, the last one first, and so is every tag in between.
The last closing tag is the end. -/
def closesAll : List String → List Token → Bool
  | [], rest => rest.isEmpty
  | _ :: _, [] => false
  | tags, .opens tag _ :: rest => closesAll (tag :: tags) rest
  | tags, .alone _ _ :: rest => closesAll tags rest
  | innermost :: tags, .closes tag :: rest => tag == innermost && closesAll tags rest
  | tags, .char _ :: rest => closesAll tags rest

/-- One element, with nothing before or after it. -/
def isElement : List Token → Bool
  | .opens tag _ :: rest => closesAll [tag] rest
  | .alone _ _ :: rest => rest.isEmpty
  | _ => false

end Wireframe.Markup
