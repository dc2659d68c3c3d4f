import AmdBundle.Number.Binary64
import AmdBundle.Text.Basic

/-!
# JSON values

An object is a list of keys with values, in the order in which the keys first occurred.

* `Json.insert` : a repeated key keeps its place and takes the new value;
* `Json.field?` : the value of a key;
* `Json.Number` : a whole number of 64 bits, or a binary floating point number.
-/

set_option autoImplicit false

namespace AmdBundle

/-- A number as a reader keeps it. -/
inductive Json.Number where
  /-- A whole number between `-2 ^ 63` and `2 ^ 64 - 1`. -/
  | whole (value : Int)
  | binary (value : Number.Binary64)
  deriving DecidableEq, Repr

inductive Json where
  | null
  | bool (value : Bool)
  | number (value : Json.Number)
  | string (value : Text)
  | array (items : List Json)
  | object (fields : List (Text × Json))
  deriving Repr

namespace Json

/-- The fields with one more; a key that is there already keeps its place. -/
def insert (key : Text) (value : Json) : List (Text × Json) → List (Text × Json)
  | [] => [(key, value)]
  | (k, v) :: rest => if k = key then (k, value) :: rest else (k, v) :: insert key value rest

/-- The fields of an object as they are read one after the other. -/
def ofPairs (pairs : List (Text × Json)) : List (Text × Json) :=
  pairs.foldl (fun fields pair => insert pair.1 pair.2 fields) []

def field? (key : Text) : List (Text × Json) → Option Json
  | [] => none
  | (k, v) :: rest => if k = key then some v else field? key rest

def ofNat (n : Nat) : Json :=
  .number (.whole n)

def ofString (s : String) : Json :=
  .string s.toList

end Json

end AmdBundle
