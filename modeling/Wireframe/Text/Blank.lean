/-!
Contract: the blank characters, and texts without blanks at their ends.

The class is the one of all white space, line ends and non-breaking blanks
included.
-/

namespace Wireframe.Text

def isBlank (char : Char) : Bool :=
  let code := char.toNat
  (0x9 ≤ code && code ≤ 0xd) || code == 0x20 || code == 0x85 || code == 0xa0 ||
    code == 0x1680 || (0x2000 ≤ code && code ≤ 0x200a) || code == 0x2028 ||
    code == 0x2029 || code == 0x202f || code == 0x205f || code == 0x3000

/-- The characters without the blanks in front. -/
def trimStart (chars : List Char) : List Char :=
  chars.dropWhile isBlank

/-- The characters without the blanks at both ends. -/
def trim (chars : List Char) : List Char :=
  (trimStart (trimStart chars).reverse).reverse

end Wireframe.Text
