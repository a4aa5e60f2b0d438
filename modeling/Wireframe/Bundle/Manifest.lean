import Wireframe.Bundle.Framework
import Wireframe.Document.Basic
import Wireframe.Json.Printer

/-!
Contract: the package manifest of a bundle.

Owns:
- `packageName`, a name of lower-case letters, digits and hyphens;
- the manifest of each framework.
-/

namespace Wireframe.Bundle

open Json

/-- The name of a package whose id has no letter or digit. -/
def fallbackName : String := "generated-prototype"

/-- A character of a package name: letters in lower case, digits, and a hyphen
for everything else. Letters and digits are those of ASCII. -/
def nameChar (char : Char) : Char :=
  if char.isAlphanum then char.toLower else '-'

/-- Some characters without the hyphens at both ends. -/
def trimHyphens (chars : List Char) : List Char :=
  ((chars.dropWhile (· = '-')).reverse.dropWhile (· = '-')).reverse

def packageName (id : String) : String :=
  match trimHyphens (id.toList.map nameChar) with
  | [] => fallbackName
  | chars => String.ofList chars

def textObject (members : List (String × String)) : Value :=
  .object (members.map fun member => (member.1, .string member.2))

def sharedMembers (document : Document) : List (String × Value) :=
  [("name", .string (packageName document.id)), ("private", .bool true),
    ("version", .string document.version)]

def manifest (document : Document) : Framework → Value
  | .next =>
      .object (sharedMembers document ++ [
        ("scripts", textObject
          [("dev", "next dev"), ("build", "next build"), ("start", "next start")]),
        ("dependencies", textObject
          [("next", "^14.1.0"), ("react", "^18.2.0"), ("react-dom", "^18.2.0")]),
        ("devDependencies", textObject
          [("autoprefixer", "^10.4.17"), ("postcss", "^8.4.35"),
            ("tailwindcss", "^3.4.1")])])
  | .react =>
      .object (sharedMembers document ++ [
        ("type", .string "module"),
        ("scripts", textObject
          [("dev", "vite"), ("build", "vite build"), ("preview", "vite preview")]),
        ("dependencies", textObject [("react", "^18.2.0"), ("react-dom", "^18.2.0")]),
        ("devDependencies", textObject
          [("@vitejs/plugin-react", "^4.2.1"), ("vite", "^5.1.0")])])

/-- The manifest file: indented text with all keys in order, and a line break. -/
def manifestFile (document : Document) (framework : Framework) : String :=
  (manifest document framework).sortKeys.pretty ++ "\n"

end Wireframe.Bundle
