import Wireframe.Bundle.Framework
import Wireframe.Check.Validator

/-!
Contract: the settings of the engine. Every member may be absent.
-/

namespace Wireframe

open Codec Json

/-- The settings of the engine. -/
structure Config where
  policy : Policy := .lenient
  framework : Framework := .next
deriving DecidableEq

namespace Config

def validationCodec : Codec Policy :=
  Codec.record "ValidationConfig"
    (.cons (.defaulting "policy" (.choice Policy.name Policy.all) .lenient) .nil)
    (fun (policy, ()) => policy)
    (fun policy => (policy, ()))

def generationCodec : Codec Framework :=
  Codec.record "CodegenConfig"
    (.cons (.defaulting "framework" Framework.codec .next) .nil)
    (fun (framework, ()) => framework)
    (fun framework => (framework, ()))

def codec : Codec Config :=
  Codec.record "CoreConfig"
    (.cons (.defaulting "validation" validationCodec .lenient) <|
      .cons (.defaulting "codegen" generationCodec .next) .nil)
    (fun (policy, framework, ()) => ⟨policy, framework⟩)
    (fun config => (config.policy, config.framework, ()))

def ofText (text : String) : Except ReadFailure Config :=
  codec.ofText text

def failureMessage (failure : ReadFailure) : String :=
  "Invalid config: " ++ failure.message

def generateOptions (config : Config) : GenerateOptions :=
  ⟨config.framework⟩

end Config

end Wireframe
