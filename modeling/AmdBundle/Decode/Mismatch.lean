import AmdBundle.Text.Basic

/-!
# Values that do not fit

A value may be of another kind than the record that is read from it wants. `Mismatch` lists the
ways, over the type `φ` of what can be found; how they are worded depends on the form from which the
record is read.

* `Wanted` : what a place in a record takes; `oneOf` : names to choose from.
-/

set_option autoImplicit false

namespace AmdBundle

inductive Wanted where
  | text
  | path
  | bool
  | count
  | list
  | map
  | nothing
  | record (name : String)
  | choice (name : String)
  | anyChoice
  | choiceName
  | nameOrMap
  | singleEntry
  | fields (name : String) (size : Nat)
  | fewer
  deriving DecidableEq, Repr

def Wanted.message : Wanted → String
  | .text => "a string"
  | .path => "path string"
  | .bool => "a boolean"
  | .count => "u64"
  | .list => "a sequence"
  | .map => "a map"
  | .nothing => "unit"
  | .record name => "struct " ++ name
  | .choice name => "enum " ++ name
  | .anyChoice => "enum"
  | .choiceName => "variant identifier"
  | .nameOrMap => "string or map"
  | .singleEntry => "map with a single key"
  | .fields name size => "struct " ++ name ++ " with " ++ toString size ++ " elements"
  | .fewer => "fewer elements in array"

/-- How a value can fail to fit. -/
inductive Mismatch (φ : Type) where
  | kind (found : φ) (wanted : Wanted)
  /-- It is of the right kind, but not one of the values. -/
  | value (found : φ) (wanted : Wanted)
  | length (found : Nat) (wanted : Wanted)
  | unknownChoice (name : Text) (known : List String)
  | unknownField (name : Text) (known : List String)
  | missingField (name : String)
  | repeatedField (name : String)
  deriving DecidableEq, Repr

def ticked (s : String) : String :=
  "\x60" ++ s ++ "\x60"

/-- The names to choose from: two are joined by `or`. -/
def oneOf : List String → String
  | [a] => ticked a
  | [a, b] => ticked a ++ " or " ++ ticked b
  | names => "one of " ++ ", ".intercalate (names.map ticked)

end AmdBundle
