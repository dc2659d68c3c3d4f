import AmdBundle.Json.Reader
import AmdBundle.Path.Basic
import AmdBundle.Settings.Value

/-!
# Decoders

A record is written in one of three forms: as JSON text, as a JSON value that was read before, or as
a setting. A decoder takes a value of a type from each of them. Only text has positions, and only in
text can a value be malformed at the very place where it is wanted.

* `Decoder` : the three functions; `Decoder.map` : a decoder of another type;
* `refuse` : the fault of a value in text that is of another kind than wanted;
* `text`, `path`, `bool`, `count` : single values; `optional`, `list` : values around others.
-/

set_option autoImplicit false

namespace AmdBundle

/-- How a value of a type is taken from what is written. -/
structure Decoder (α : Type) where
  /-- From the front of a JSON text, with so many more brackets allowed around each other. -/
  read : Nat → Json.Reader α
  ofJson : Json → Except (Mismatch Json.Found) α
  ofSetting : Setting → Except Setting.Fault α

namespace Decoder

/-- A decoder of a type that another type is mapped to. -/
def map {α β : Type} (f : α → β) (d : Decoder α) : Decoder β where
  read := fun depth text => (d.read depth text).map fun found => (f found.1, found.2)
  ofJson := fun v => (d.ofJson v).map f
  ofSetting := fun s => (d.ofSetting s).map f

def parse {α : Type} (d : Decoder α) (text : Text) : Except Json.Fault α :=
  Json.whole (d.read Json.depthLimit) text

/-! ## Refusing -/

/-- The fault of a JSON value that is of another kind. -/
def wrongJson {α : Type} (v : Json) (wanted : Wanted) : Except (Mismatch Json.Found) α :=
  .error (.kind v.found wanted)

/-- The fault of a setting that is of another kind. -/
def wrongSetting {α : Type} (s : Setting) (wanted : Wanted) : Except Setting.Fault α :=
  .error (.here (.kind s.found wanted))

/-- The fault of a text that begins with a value of another kind. A bracket is not taken, any other
value is. -/
def refuse {α : Type} (wanted : Wanted) : Json.Reader α
  | [] => .error (.looking [] .endInValue)
  | c :: rest =>
    match Json.scalar? c rest with
    | some (.error fault) => .error fault
    | some (.ok (v, rest)) => .error (.after rest (.mismatch (.kind v.found wanted)))
    | none =>
      if c = '[' then .error (.after (c :: rest) (.mismatch (.kind .list wanted)))
      else if c = '{' then .error (.after (c :: rest) (.mismatch (.kind .map wanted)))
      else .error (.looking (c :: rest) .noValue)

/-! ## Single values -/

def readText (wanted : Wanted) : Json.Reader Text := fun text =>
  match Json.skipSpace text with
  | '"' :: rest => Json.readString rest
  | text => refuse wanted text

def textAs (wanted : Wanted) : Decoder Text where
  read := fun _ => readText wanted
  ofJson
    | .string value => .ok value
    | v => wrongJson v wanted
  ofSetting
    | .text value => .ok value
    | .letter c => .ok [c]
    | s => wrongSetting s wanted

def text : Decoder Text :=
  textAs .text

def path : Decoder Path :=
  textAs .path

def readBool : Json.Reader Bool := fun text =>
  match Json.skipSpace text with
  | 't' :: rest => (Json.word ['r', 'u', 'e'] rest).map fun rest => (true, rest)
  | 'f' :: rest => (Json.word ['a', 'l', 's', 'e'] rest).map fun rest => (false, rest)
  | text => refuse .bool text

def bool : Decoder Bool where
  read := fun _ => readBool
  ofJson
    | .bool value => .ok value
    | v => wrongJson v .bool
  ofSetting
    | .flag value => .ok value
    | s => wrongSetting s .bool

def countOf : Json.Number → Except (Mismatch Json.Found) Nat
  | .whole value =>
    if value < 0 then .error (.value (.number (.whole value)) .count) else .ok value.natAbs
  | .binary value => .error (.kind (.number (.binary value)) .count)

def readCount : Json.Reader Nat := fun text =>
  match Json.skipSpace text with
  | [] => refuse .count []
  | c :: rest =>
    if c = '-' ∨ c.isDigit then do
      let (n, rest) ← if c = '-' then Json.readNumber false rest else Json.readNumber true (c :: rest)
      match countOf n with
      | .ok count => .ok (count, rest)
      | .error m => .error (.after rest (.mismatch m))
    else refuse .count (c :: rest)

/-- A whole number from 0 on. -/
def count : Decoder Nat where
  read := fun _ => readCount
  ofJson
    | .number n => countOf n
    | v => wrongJson v .count
  ofSetting
    | .natural value => .ok value
    | .signed value =>
      if value < 0 then .error (.here (.value (.signed value) .count)) else .ok value.natAbs
    | s => wrongSetting s .count

/-! ## Values around others -/

def optional {α : Type} (d : Decoder α) : Decoder (Option α) where
  read := fun depth text =>
    match Json.skipSpace text with
    | 'n' :: rest => (Json.word ['u', 'l', 'l'] rest).map fun rest => (none, rest)
    | text => (d.map some).read depth text
  ofJson
    | .null => .ok none
    | v => (d.map some).ofJson v
  ofSetting
    | .unset => .ok none
    | s => (d.map some).ofSetting s

/-- One bracket less, unless none is allowed. -/
def deeper {α : Type} (depth : Nat) (text : Text) (read : Nat → Except Json.Fault α) :
    Except Json.Fault α :=
  match depth with
  | 0 => .error (.looking text .tooDeep)
  | depth + 1 => read depth

/-- Settings one after the other, numbered on from `n`. -/
def settingsFrom {α : Type} (d : Decoder α) (n : Nat) : List Setting → Except Setting.Fault (List α)
  | [] => .ok []
  | s :: more => do
    let first ← (d.ofSetting s).mapError (Setting.Fault.inside (Text.ofNat n))
    let rest ← settingsFrom d (n + 1) more
    .ok (first :: rest)

def list {α : Type} (d : Decoder α) : Decoder (List α) where
  read := fun depth text =>
    match Json.skipSpace text with
    | '[' :: rest => deeper depth ('[' :: rest) fun depth => Json.items (d.read depth) rest
    | text => refuse .list text
  ofJson
    | .array items => items.mapM d.ofJson
    | v => wrongJson v .list
  ofSetting
    | .list items => settingsFrom d 0 items
    | s => wrongSetting s .list

end Decoder

end AmdBundle
