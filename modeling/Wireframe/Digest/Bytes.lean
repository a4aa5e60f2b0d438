/-!
Contract: texts and numbers as bytes, and bytes as hexadecimal text.
-/

namespace Wireframe.Digest

/-- The UTF-8 bytes of a text. -/
def utf8 (text : String) : List UInt8 :=
  text.toList.flatMap String.utf8EncodeChar

/-- The eight bytes of a number below `2 ^ 64`, the most significant first. -/
def bigEndian64 (value : Nat) : List UInt8 :=
  [56, 48, 40, 32, 24, 16, 8, 0].map fun shift => UInt8.ofNat (value >>> shift)

def hex (bytes : List UInt8) : String :=
  String.ofList (bytes.flatMap fun byte =>
    [Nat.digitChar (byte.toNat / 16), Nat.digitChar (byte.toNat % 16)])

end Wireframe.Digest
