import Wireframe.Codec.Record

/-!
Contract: the frameworks that code is generated for.
-/

namespace Wireframe

open Codec

/-- A framework that a bundle is made for. -/
inductive Framework where
  | next
  | react
deriving DecidableEq, Inhabited

/-- A name that no framework bears. -/
structure UnsupportedFramework where
  name : String
deriving DecidableEq

namespace UnsupportedFramework

def message (error : UnsupportedFramework) : String :=
  "Unsupported framework: " ++ error.name ++ " (expected one of: next, react)"

end UnsupportedFramework

namespace Framework

def all : List Framework := [.next, .react]

def name : Framework → String
  | .next => "next"
  | .react => "react"

def ofName (name : String) : Except UnsupportedFramework Framework :=
  match all.find? fun framework => framework.name == name with
  | some framework => .ok framework
  | none => .error ⟨name⟩

def entryPath : Framework → String
  | .next => "app/page.tsx"
  | .react => "src/main.tsx"

def codec : Codec Framework :=
  .choice name all

end Framework

/-- What a generation may be told. -/
structure GenerateOptions where
  framework : Framework := .next
deriving DecidableEq

namespace GenerateOptions

def codec : Codec GenerateOptions :=
  Codec.record "GenerateOptions"
    (.cons (.defaulting "framework" Framework.codec .next) .nil)
    (fun (framework, ()) => ⟨framework⟩)
    (fun options => (options.framework, ()))

end GenerateOptions

end Wireframe
