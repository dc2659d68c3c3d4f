import AmdBundle.Decode.Mismatch
import AmdBundle.Json.Basic
import AmdBundle.Number.Shortest
import AmdBundle.Text.Quoted

/-!
# Settings

A setting is a value from a settings file or from the environment, before it is known what the value
is for.

* `Setting` : the values; `Setting.ofJson` : a JSON value as a setting;
* `Setting.overlay` : one setting over another; `Setting.holds` : is there a value at the end of a way;
* `Setting.Fault` : a setting that does not fit, and the way to it.
-/

set_option autoImplicit false

namespace AmdBundle

inductive Setting where
  | unset
  | flag (value : Bool)
  | natural (value : Nat)
  | signed (value : Int)
  /-- A fractional number, by its positional text. No setting is one. -/
  | fraction (shown : Text)
  | text (value : Text)
  | letter (c : Char)
  | list (items : List Setting)
  | table (fields : List (Text × Setting))
  deriving Repr

namespace Setting

/-! ## From JSON -/

/-- The fields with one more, sorted by name. -/
def insert {α : Type} (key : Text) (value : α) : List (Text × α) → List (Text × α)
  | [] => [(key, value)]
  | (k, v) :: rest =>
    if k = key then (key, value) :: rest
    else if Text.before key k then (key, value) :: (k, v) :: rest
    else (k, v) :: insert key value rest

def ofNumber : Json.Number → Setting
  | .whole value => if value < 0 then .signed value else .natural value.natAbs
  | .binary value => .fraction value.positional

mutual

def ofJson : Json → Setting
  | .null => .unset
  | .bool value => .flag value
  | .number value => ofNumber value
  | .string value => .text value
  | .array items => .list (ofItems items)
  | .object fields => .table (ofFields fields)

/-- The items of a JSON array as settings. -/
def ofItems : List Json → List Setting
  | [] => []
  | item :: more => ofJson item :: ofItems more

/-- The members of a JSON object as settings. -/
def ofFields : List (Text × Json) → List (Text × Setting)
  | [] => []
  | (key, value) :: more => insert key (ofJson value) (ofFields more)

end

/-! ## One over another -/

def lookup (key : Text) : List (Text × Setting) → Option Setting
  | [] => none
  | (k, value) :: rest => if k = key then some value else lookup key rest

mutual

/-- A setting over another one: tables are united, and anything else hides what is below it. -/
def overlay (lower : Setting) : Setting → Setting
  | .table upper =>
    match lower with
    | .table fields => .table (overlayFields fields upper)
    | _ => .table upper
  | upper => upper

def overlayFields (lower : List (Text × Setting)) : List (Text × Setting) → List (Text × Setting)
  | [] => lower
  | (key, value) :: more =>
    let value :=
      match lookup key lower with
      | some old => overlay old value
      | none => value
    overlayFields (insert key value lower) more

end

/-- Is there a value at the end of a way? The items of a list are named by their number. -/
def holds : List Text → Setting → Bool
  | [], _ => true
  | name :: way, .table fields => fields.any fun f => f.1 == name && holds way f.2
  | name :: way, .list items => items.zipIdx.any fun i => Text.ofNat i.2 == name && holds way i.1
  | _ :: _, _ => false

/-! ## Settings that do not fit -/

inductive Found where
  | unset
  | flag (value : Bool)
  | natural (value : Nat)
  | signed (value : Int)
  | fraction (shown : Text)
  | text (value : Text)
  | list
  | table
  deriving DecidableEq, Repr

/-- What a setting is found to be; a letter is a text. -/
def found : Setting → Found
  | .unset => .unset
  | .flag value => .flag value
  | .natural value => .natural value
  | .signed value => .signed value
  | .fraction shown => .fraction shown
  | .text value => .text value
  | .letter c => .text [c]
  | .list _ => .list
  | .table _ => .table

def Found.message : Found → String
  | .unset => "unit"
  | .flag value => "bool " ++ toString value
  | .natural value => "unsigned int " ++ ticked (toString value)
  | .signed value => "signed int " ++ ticked (toString value)
  | .fraction shown => "float " ++ ticked (String.ofList shown)
  | .text value => "string " ++ String.ofList (Text.shown value)
  | .list => "sequence"
  | .table => "map"

def mismatchText : Mismatch Found → String
  | .kind f w => "invalid type: found " ++ f.message ++ ", expected " ++ w.message
  | .value f w => "invalid value " ++ f.message ++ ", expected " ++ w.message
  | .length n w => "invalid length " ++ toString n ++ ", expected " ++ w.message
  | .unknownChoice name known =>
    "unknown variant: found " ++ ticked (String.ofList name) ++ ", expected " ++
      ticked (oneOf known)
  | .unknownField name known =>
    "unknown field: found " ++ ticked (String.ofList name) ++ ", expected " ++ ticked (oneOf known)
  | .missingField name => "missing field " ++ ticked name
  | .repeatedField name => "duplicate field " ++ ticked name

structure Fault where
  way : List Text
  mismatch : Mismatch Found
  deriving DecidableEq, Repr

def Fault.here (m : Mismatch Found) : Fault :=
  ⟨[], m⟩

/-- The fault of a part as a fault of the whole. -/
def Fault.inside (name : Text) (fault : Fault) : Fault :=
  { fault with way := name :: fault.way }

end Setting

end AmdBundle
