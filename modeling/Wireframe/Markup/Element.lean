import Wireframe.Markup.Escape
import Wireframe.Json.Printer
import Wireframe.Number.Spelling

/-!
Contract: markup as a tree, and its text.

Owns:
- `Attribute` and `Element`, the tree that a component tree is lowered to;
- `Element.print`, its text. Each element and each text of a block stands on a
  line of its own, indented by its depth.
-/

namespace Wireframe.Markup

open Json Number

def indent : List Char := [' ', ' ']

/-- The levels at which markup starts inside a component's function. -/
def baseDepth : Nat := 2

def line (depth : Nat) : List Char :=
  '\n' :: (List.replicate (baseDepth + depth) indent).flatten

/-- The value of a style property. -/
inductive StyleValue where
  | text (value : String)
  | number (value : Binary64)

namespace StyleValue

/-- A string literal, or a number. -/
def print : StyleValue → List Char
  | .text value => stringChars value
  | .number value => Spelling.markup.write value

end StyleValue

/-- An attribute of an opening tag. -/
inductive Attribute where
  | quoted (name value : String)
  | style (properties : List (String × StyleValue))

namespace Attribute

def printProperty (property : String × StyleValue) : List Char :=
  property.1.toList ++ ':' :: ' ' :: property.2.print

def print : Attribute → List Char
  | .quoted name value =>
      ' ' :: (name.toList ++ '=' :: '"' :: (escapeAttribute value.toList ++ ['"']))
  | .style properties =>
      " style=\x7b\x7b ".toList ++ separated [',', ' '] (properties.map printProperty) ++
        " \x7d\x7d".toList

end Attribute

/-- A piece of markup. -/
inductive Element where
  /-- A text on a line of its own. -/
  | text (value : String)
  /-- An element without content. -/
  | void (tag : String) (attributes : List Attribute)
  /-- An element around a text, on one line. -/
  | inline (tag : String) (attributes : List Attribute) (value : String)
  /-- An element around others; its tags share a line when there are none. -/
  | block (tag : String) (attributes : List Attribute) (body : List Element)

namespace Element

def opening (tag : String) (attributes : List Attribute) : List Char :=
  '<' :: (tag.toList ++ attributes.flatMap Attribute.print)

def closing (tag : String) : List Char :=
  '<' :: '/' :: (tag.toList ++ ['>'])

mutual

def print (depth : Nat) : Element → List Char
  | .text value => line depth ++ escapeText value.toList
  | .void tag attributes => line depth ++ opening tag attributes ++ " />".toList
  | .inline tag attributes value =>
      line depth ++ opening tag attributes ++ '>' :: (escapeText value.toList ++ closing tag)
  | .block tag attributes body =>
      let ended := match body with
        | [] => closing tag
        | _ :: _ => line depth ++ closing tag
      line depth ++ opening tag attributes ++ '>' :: (printAll (depth + 1) body ++ ended)

def printAll (depth : Nat) : List Element → List Char
  | [] => []
  | element :: rest => print depth element ++ printAll depth rest

end

end Element

end Wireframe.Markup
