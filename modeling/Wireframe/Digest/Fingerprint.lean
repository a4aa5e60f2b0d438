import Wireframe.Bundle.Basic
import Wireframe.Digest.Sha256
import Wireframe.Document.Basic

/-!
Contract: digests of documents and bundles.

Owns:
- the fingerprint of a document, taken of its canonical text;
- the digest of every file of a bundle;
- the digest of a bundle, and the bytes that it is taken of.
-/

namespace Wireframe

namespace Document

def fingerprint (document : Document) : String :=
  Digest.ofText document.canonical

end Document

namespace CodeBundle

open Digest

/-- The digest of every file, by its path. -/
def fileDigests (bundle : CodeBundle) : Codec.Dict String :=
  bundle.files.map fun file => (file.1, Digest.ofText file.2)

/-- A file as it is framed: its path and its content after a zero byte each, and
the length of the content before it. -/
def frameFile (file : String × String) : List UInt8 :=
  let content := utf8 file.2
  0 :: (utf8 file.1 ++ 0 :: (bigEndian64 content.length ++ content))

/-- The bytes of a bundle: the framework, the entry after a zero byte, and every
file in the order of the paths. -/
def frame (bundle : CodeBundle) : List UInt8 :=
  utf8 bundle.framework.name ++ 0 :: (utf8 bundle.entry ++ bundle.files.flatMap frameFile)

def digest (bundle : CodeBundle) : String :=
  sha256Hex bundle.frame

end CodeBundle

end Wireframe
