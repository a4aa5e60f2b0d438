import Wireframe.Bundle.Framework

/-!
Contract: bundles of generated files.
-/

namespace Wireframe

open Codec

/-- Generated files by their paths, in the order of the paths. -/
structure CodeBundle where
  files : Codec.Dict String
  entry : String
  framework : Framework
deriving DecidableEq

namespace CodeBundle

/-- The content of the entry file, if the bundle holds it. -/
def entrySource? (bundle : CodeBundle) : Option String :=
  bundle.files.lookup bundle.entry

def codec : Codec CodeBundle :=
  Codec.record "CodeBundle"
    (.cons (.needed "files" (.dict .string)) <|
      .cons (.needed "entry" .string) <|
      .cons (.needed "framework" Framework.codec) .nil)
    (fun (files, entry, framework, ()) => ⟨files, entry, framework⟩)
    (fun bundle => (bundle.files, bundle.entry, bundle.framework, ()))

end CodeBundle

end Wireframe
