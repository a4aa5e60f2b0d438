import Wireframe.Check.Shape
import Wireframe.Check.UniqueId
import Wireframe.Document.Basic

/-!
Contract: the gate that data passes before it becomes a document, a node or a
patch.

Owns:
- `Policy`, which severities block;
- the report on a document;
- validation, a check followed by decoding.

Does not own: the rules themselves.
-/

namespace Wireframe

open Codec Json

/-- Which violations block: errors always, warnings under the strict policy. -/
inductive Policy where
  | lenient
  | strict
deriving DecidableEq, Inhabited

namespace Policy

def all : List Policy := [.lenient, .strict]

def name : Policy → String
  | .lenient => "lenient"
  | .strict => "strict"

def blocks (policy : Policy) (violation : Violation) : Bool :=
  violation.severity == .error || policy == .strict

end Policy

namespace Check

/-- Every violation of a document in data: the shape first, then the ids. -/
def documentViolations (value : Value) : List Violation :=
  violations documentRule value ++ uniqueIdViolations value

def report (policy : Policy) (value : Value) : Report :=
  let found := documentViolations value
  ⟨!found.any policy.blocks, found⟩

/-- The typed form of checked data. A refusal here would be a violation of its
own. -/
def decoded {α : Type} (codec : Codec α) (value : Value) : Except Rejection α :=
  match codec.decode value with
  | .ok decoded => .ok decoded
  | .error error => .error ⟨[⟨"decode", .error, rootPath, error.message, none⟩]⟩

/-- Data as a document, unless a violation blocks. -/
def validate (policy : Policy) (value : Value) : Except Rejection Document :=
  match (report policy value).violations.filter policy.blocks with
  | [] => decoded Document.codec value
  | blocking => .error ⟨blocking⟩

/-- Data as a typed value, unless a shape rule is violated. -/
def validateShape {α : Type} (rule : Rule) (codec : Codec α) (value : Value) :
    Except Rejection α :=
  match violations rule value with
  | [] => decoded codec value
  | found => .error ⟨found⟩

def validateNode : Value → Except Rejection Node :=
  validateShape (.node false) Node.codec

def validatePatch : Value → Except Rejection Patch :=
  validateShape patchRule Patch.codec

def patchesViolations : Value → List Violation
  | .array items => checkItems nodeShape items patchRule rootPath 0
  | value => wrongKind value rootPath "expected array of patches"

/-- Data as a list of patches; every bad one is reported. -/
def validatePatches (value : Value) : Except Rejection (List Patch) :=
  match patchesViolations value with
  | [] => decoded (.list Patch.codec) value
  | found => .error ⟨found⟩

end Check

/-- Why a text is refused as a document. -/
inductive TextError where
  | invalidJson (failure : Failure)
  | rejected (rejection : Rejection)

namespace TextError

def message : TextError → String
  | .invalidJson failure => "Invalid JSON: " ++ failure.fault.message
  | .rejected rejection => rejection.message

end TextError

namespace Document

/-- The document that a text spells, under a policy. -/
def deserialize (policy : Policy) (text : String) : Except TextError Document :=
  match parse text with
  | .error failure => .error (.invalidJson failure)
  | .ok value =>
      match Check.validate policy value with
      | .error rejection => .error (.rejected rejection)
      | .ok document => .ok document

end Document

end Wireframe
