import Wireframe.Json.Printer
import Wireframe.Json.Fault
import Wireframe.Text.Quoted

/-!
Contract: why a JSON value is no member of a type.

Owns:
- `Found` and `Expectation`, the two sides of a mismatch;
- `DecodeError`, the causes, and their wording;
- `ReadFailure`, a cause met while reading text.
-/

namespace Wireframe.Codec

open Json Number

/-- What stands in the place of the expected value. -/
inductive Found where
  | null
  | bool (value : Bool)
  | integer (value : Int)
  | float (value : Binary64)
  | string (text : String)
  | sequence
  | map

namespace Found

def ofValue : Value → Found
  | .null => .null
  | .bool value => .bool value
  | .integer number => .integer number.value
  | .float number => .float number
  | .string text => .string text
  | .array _ => .sequence
  | .object _ => .map

def describe : Found → String
  | .null => "null"
  | .bool value => s!"boolean `{value}`"
  | .integer value => s!"integer `{value}`"
  | .float value => s!"floating point `{String.ofList (Spelling.data.write value)}`"
  | .string text => "string " ++ Text.quoted text
  | .sequence => "sequence"
  | .map => "map"

end Found

/-- What a place calls for. -/
inductive Expectation where
  | record (label : String)
  | recordOfLength (label : String) (length : Nat)
  | string
  | double
  | natural (label : String)
  | boolean
  | sequence
  | map
  | quad
  | unit
  | choice
  | singleMember
  | fewerItems
  | timestamp

namespace Expectation

def describe : Expectation → String
  | .record label => s!"struct {label}"
  | .recordOfLength label 1 => s!"struct {label} with 1 element"
  | .recordOfLength label length => s!"struct {label} with {length} elements"
  | .string => "a string"
  | .double => "f64"
  | .natural label => label
  | .boolean => "a boolean"
  | .sequence => "a sequence"
  | .map => "a map"
  | .quad => "an array of length 4"
  | .unit => "unit"
  | .choice => "string or map"
  | .singleMember => "map with a single key"
  | .fewerItems => "fewer elements in array"
  | .timestamp => "an ISO-8601 timestamp or epoch milliseconds"

end Expectation

/-- Why a value is refused. -/
inductive DecodeError where
  | invalidType (found : Found) (expected : Expectation)
  | invalidValue (found : Found) (expected : Expectation)
  | invalidLength (length : Nat) (expected : Expectation)
  | missingField (name : String)
  | duplicateField (name : String)
  | unknownVariant (name : String) (allowed : List String)
  | invalidTimestamp (text : String)
  | timestampOutOfRange (millis : Option Int)
  | fractionalTimestamp (millis : Binary64)

namespace DecodeError

/-- Names in back quotes, as a choice. -/
def oneOf : List String → String
  | [first, second] => s!"`{first}` or `{second}`"
  | [only] => s!"`{only}`"
  | names => "one of " ++ ", ".intercalate (names.map fun name => s!"`{name}`")

def message : DecodeError → String
  | .invalidType found expected =>
      s!"invalid type: {found.describe}, expected {expected.describe}"
  | .invalidValue found expected =>
      s!"invalid value: {found.describe}, expected {expected.describe}"
  | .invalidLength length expected =>
      s!"invalid length {length}, expected {expected.describe}"
  | .missingField name => s!"missing field `{name}`"
  | .duplicateField name => s!"duplicate field `{name}`"
  | .unknownVariant name allowed => s!"unknown variant `{name}`, expected {oneOf allowed}"
  | .invalidTimestamp text => Position.dropSuffix s!"invalid timestamp: {text}"
  | .timestampOutOfRange none => "timestamp out of range"
  | .timestampOutOfRange (some millis) => s!"timestamp out of range: {millis}"
  | .fractionalTimestamp millis =>
      "timestamp must be whole milliseconds: " ++
        String.ofList (Spelling.markup.write millis)

end DecodeError

/-- What stops the reading of a typed value from text: text that is not JSON, or
a value that is refused, at a byte offset. -/
inductive ReadFailure where
  | grammar (failure : Failure)
  | content (error : DecodeError) (offset : Nat)

namespace ReadFailure

def message : ReadFailure → String
  | .grammar failure => failure.fault.message
  | .content error _ => error.message

def category : ReadFailure → Category
  | .grammar failure => failure.fault.category
  | .content _ _ => .content

def offset : ReadFailure → Nat
  | .grammar failure => failure.offset
  | .content _ offset => offset

end ReadFailure

end Wireframe.Codec
