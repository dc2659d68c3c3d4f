import AmdBundle.Decode.Mismatch
import AmdBundle.Json.Basic
import AmdBundle.Number.Shortest
import AmdBundle.Text.Quoted

/-!
# JSON values that do not fit

* `Json.Found`, `found` : what a value is found to be, brackets without what is inside them;
* `mismatchText` : how a mismatch of a JSON value is worded.
-/

set_option autoImplicit false

namespace AmdBundle.Json

inductive Found where
  | null
  | bool (value : Bool)
  | number (value : Json.Number)
  | string (value : Text)
  | list
  | map
  deriving DecidableEq, Repr

/-- What a JSON value is found to be. -/
def found : Json → Found
  | .null => .null
  | .bool value => .bool value
  | .number value => .number value
  | .string value => .string value
  | .array _ => .list
  | .object _ => .map

/-- A number as an error shows it. -/
def Number.shown : Json.Number → String
  | .whole value => "integer " ++ ticked (toString value)
  | .binary value => "floating point " ++ ticked (String.ofList value.jsonText)

def Found.message : Found → String
  | .null => "null"
  | .bool value => "boolean " ++ ticked (toString value)
  | .number value => value.shown
  | .string value => "string " ++ String.ofList (Text.shown value)
  | .list => "sequence"
  | .map => "map"

def mismatchText : Mismatch Found → String
  | .kind f w => "invalid type: " ++ f.message ++ ", expected " ++ w.message
  | .value f w => "invalid value: " ++ f.message ++ ", expected " ++ w.message
  | .length n w => "invalid length " ++ toString n ++ ", expected " ++ w.message
  | .unknownChoice name known =>
    "unknown variant " ++ ticked (String.ofList name) ++ ", expected " ++ oneOf known
  | .unknownField name known =>
    "unknown field " ++ ticked (String.ofList name) ++ ", expected " ++ oneOf known
  | .missingField name => "missing field " ++ ticked name
  | .repeatedField name => "duplicate field " ++ ticked name

end AmdBundle.Json
