import Wireframe.Digest.Bytes

/-!
Contract: the SHA-256 digest of bytes.
-/

namespace Wireframe.Digest

/-- The eight words that are chained from block to block. -/
structure Chain where
  a : UInt32
  b : UInt32
  c : UInt32
  d : UInt32
  e : UInt32
  f : UInt32
  g : UInt32
  h : UInt32

namespace Chain

/-- The words before the first block. -/
def start : Chain :=
  ⟨0x6a09e667, 0xbb67ae85, 0x3c6ef372, 0xa54ff53a, 0x510e527f, 0x9b05688c, 0x1f83d9ab,
    0x5be0cd19⟩

def add (left right : Chain) : Chain :=
  ⟨left.a + right.a, left.b + right.b, left.c + right.c, left.d + right.d,
    left.e + right.e, left.f + right.f, left.g + right.g, left.h + right.h⟩

def toList (chain : Chain) : List UInt32 :=
  [chain.a, chain.b, chain.c, chain.d, chain.e, chain.f, chain.g, chain.h]

end Chain

/-- The constants of the 64 rounds. -/
def roundConstants : List UInt32 :=
  [0x428a2f98, 0x71374491, 0xb5c0fbcf, 0xe9b5dba5, 0x3956c25b, 0x59f111f1, 0x923f82a4,
    0xab1c5ed5, 0xd807aa98, 0x12835b01, 0x243185be, 0x550c7dc3, 0x72be5d74, 0x80deb1fe,
    0x9bdc06a7, 0xc19bf174, 0xe49b69c1, 0xefbe4786, 0x0fc19dc6, 0x240ca1cc, 0x2de92c6f,
    0x4a7484aa, 0x5cb0a9dc, 0x76f988da, 0x983e5152, 0xa831c66d, 0xb00327c8, 0xbf597fc7,
    0xc6e00bf3, 0xd5a79147, 0x06ca6351, 0x14292967, 0x27b70a85, 0x2e1b2138, 0x4d2c6dfc,
    0x53380d13, 0x650a7354, 0x766a0abb, 0x81c2c92e, 0x92722c85, 0xa2bfe8a1, 0xa81a664b,
    0xc24b8b70, 0xc76c51a3, 0xd192e819, 0xd6990624, 0xf40e3585, 0x106aa070, 0x19a4c116,
    0x1e376c08, 0x2748774c, 0x34b0bcb5, 0x391c0cb3, 0x4ed8aa4a, 0x5b9cca4f, 0x682e6ff3,
    0x748f82ee, 0x78a5636f, 0x84c87814, 0x8cc70208, 0x90befffa, 0xa4506ceb, 0xbef9a3f7,
    0xc67178f2]

def rotate (word : UInt32) (count : UInt32) : UInt32 :=
  word >>> count ||| word <<< (32 - count)

/-- One round with the message word of the round. -/
def round (chain : Chain) (constant word : UInt32) : Chain :=
  let sumE := rotate chain.e 6 ^^^ rotate chain.e 11 ^^^ rotate chain.e 25
  let choice := (chain.e &&& chain.f) ^^^ (~~~chain.e &&& chain.g)
  let first := chain.h + sumE + choice + constant + word
  let sumA := rotate chain.a 2 ^^^ rotate chain.a 13 ^^^ rotate chain.a 22
  let majority :=
    (chain.a &&& chain.b) ^^^ (chain.a &&& chain.c) ^^^ (chain.b &&& chain.c)
  ⟨first + sumA + majority, chain.a, chain.b, chain.c, chain.d + first, chain.e, chain.f,
    chain.g⟩

/-- The sixteen message words of the next round from those of this one. -/
def nextWords (words : List UInt32) : List UInt32 :=
  let early := words.getD 1 0
  let late := words.getD 14 0
  let mixEarly := rotate early 7 ^^^ rotate early 18 ^^^ early >>> 3
  let mixLate := rotate late 17 ^^^ rotate late 19 ^^^ late >>> 10
  words.drop 1 ++ [words.getD 0 0 + mixEarly + words.getD 9 0 + mixLate]

def absorbBlock (chain : Chain) (block : List UInt32) : Chain :=
  let (mixed, _) := roundConstants.foldl
    (fun (chain, words) constant =>
      (round chain constant (words.getD 0 0), nextWords words))
    (chain, block)
  chain.add mixed

def absorbBlocks : Nat → Chain → List UInt32 → Chain
  | 0, chain, _ => chain
  | count + 1, chain, words =>
      absorbBlocks count (absorbBlock chain (words.take 16)) (words.drop 16)

/-- Bytes as words, the most significant byte first. -/
def toWords : List UInt8 → List UInt32
  | first :: second :: third :: fourth :: rest =>
      (first.toUInt32 <<< 24 ||| second.toUInt32 <<< 16 ||| third.toUInt32 <<< 8 |||
        fourth.toUInt32) :: toWords rest
  | _ => []

/-- The bytes of a word, the most significant first. -/
def ofWord (word : UInt32) : List UInt8 :=
  [(word >>> 24).toUInt8, (word >>> 16).toUInt8, (word >>> 8).toUInt8, word.toUInt8]

/-- The message with a one bit, zeros up to a whole block, and its length. -/
def pad (message : List UInt8) : List UInt8 :=
  let zeros := (119 - message.length % 64) % 64
  message ++ 0x80 :: (List.replicate zeros 0 ++ bigEndian64 (8 * message.length))

/-- The 32 bytes of the digest. -/
def sha256 (message : List UInt8) : List UInt8 :=
  let words := toWords (pad message)
  (absorbBlocks (words.length / 16) .start words).toList.flatMap ofWord

def sha256Hex (message : List UInt8) : String :=
  hex (sha256 message)

def ofText (text : String) : String :=
  sha256Hex (utf8 text)

end Wireframe.Digest
