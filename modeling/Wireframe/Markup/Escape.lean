/-!
Contract: texts inside markup.

Owns:
- `escapeText`, a text between tags;
- `escapeAttribute`, a text between double quotes.
-/

namespace Wireframe.Markup

def textChar (char : Char) : List Char :=
  if char = '&' then "&amp;".toList
  else if char = '<' then "&lt;".toList
  else if char = '>' then "&gt;".toList
  else if char = '\x7b' then "&#123;".toList
  else if char = '\x7d' then "&#125;".toList
  else [char]

def escapeText (chars : List Char) : List Char :=
  chars.flatMap textChar

def replaceChar (target : Char) (replacement chars : List Char) : List Char :=
  chars.flatMap fun char => if char = target then replacement else [char]

/-- The characters of a text between double quotes: first the ampersands, then
the quotes are replaced. -/
def escapeAttribute (chars : List Char) : List Char :=
  replaceChar '"' "&quot;".toList (replaceChar '&' "&amp;".toList chars)

end Wireframe.Markup
