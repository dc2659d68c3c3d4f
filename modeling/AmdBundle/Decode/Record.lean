import AmdBundle.Decode.Basic
import AmdBundle.Json.Skip

/-!
# Records

A record is written as an object with a member for each of its fields, in any order, or as a list of
its fields in their own order. Fields may be left out; whether the record can do without them is
decided once all have been read.

* `Field` : a field and how its value enters the record; `Shape` : all fields of a record;
* `Decoder.record` : the decoder of records of a shape.

A fault that concerns no single value, such as a field that occurs twice, shows behind the blanks
that follow and the closing brace, if it is next.
-/

set_option autoImplicit false

namespace AmdBundle

/-- A field of a record that is being read as a `σ`. -/
structure Field (σ : Type) where
  name : String
  /-- The decoder of its value, as the change that the value makes. -/
  fill : Decoder (σ → σ)

/-- A field whose value is put into the record by `set`. -/
def Field.of {σ α : Type} (name : String) (d : Decoder α) (set : α → σ → σ) : Field σ :=
  ⟨name, d.map set⟩

/-- The fields of a record of type `α` that is being read as a `σ`. -/
structure Shape (σ α : Type) where
  title : String
  fields : List (Field σ)
  start : σ
  /-- Are keys that name no field a fault? -/
  isClosed : Bool
  isFull : Bool
  /-- The record, or the name of a field that it cannot do without. -/
  finish : σ → Except String α

namespace Shape

variable {σ α : Type}

def names (shape : Shape σ α) : List String :=
  shape.fields.map Field.name

def field? (shape : Shape σ α) (key : Text) : Option (Field σ) :=
  shape.fields.find? fun f => f.name.toList = key

def finished {φ : Type} (shape : Shape σ α) (s : σ) : Except (Mismatch φ) α :=
  (shape.finish s).mapError .missingField

/-- The mismatch of a list that is too short. -/
def tooShort {φ : Type} (shape : Shape σ α) (length : Nat) : Mismatch φ :=
  .length length (.fields shape.title shape.fields.length)

end Shape

namespace Decoder

variable {σ α : Type}

/-! ## From text -/

/-- A fault of an object as a whole, of which `text` is left. -/
def objectFault (text : Text) (m : Mismatch Json.Found) : Json.Fault :=
  match Json.skipSpace text with
  | '}' :: rest => .after rest (.mismatch m)
  | rest => .after rest (.mismatch m)

/-- A fault of a list as a whole, of which `text` is left. -/
def listFault (text : Text) (m : Mismatch Json.Found) : Json.Fault :=
  match Json.skipSpace text with
  | ']' :: rest => .after rest (.mismatch m)
  | rest => .after rest (.mismatch m)

/-- The members of a record up to the closing brace. No member was read yet if `first`; `seen` are the
fields before, and `fuel` is more than the length of the text. -/
def readMembers (shape : Shape σ α) (depth : Nat) :
    Nat → Bool → List String → σ → Json.Reader σ
  | 0, _, _, _, text => .error (.looking text .endInObject)
  | fuel + 1, first, seen, s, text => do
    match ← Json.nextKey first text with
    | .done rest => .ok (s, rest)
    | .more rest =>
      let (key, rest) ← Json.readString (rest.drop 1)
      match shape.field? key with
      | none =>
        if shape.isClosed then .error (objectFault rest (.unknownField key shape.names))
        else readMembers shape depth fuel false seen s (← Json.skip (← Json.colon rest))
      | some field =>
        if seen.contains field.name then .error (objectFault rest (.repeatedField field.name))
        else
          let (change, rest) ← field.fill.read depth (← Json.colon rest)
          readMembers shape depth fuel false (field.name :: seen) (change s) rest

def readObject (shape : Shape σ α) (depth : Nat) : Json.Reader α := fun text => do
  let (s, rest) ← readMembers shape depth (text.length + 1) true [] shape.start text
  match shape.finished s with
  | .error m => .error (objectFault rest m)
  | .ok record => .ok (record, ← Json.closeObject rest)

/-- The items of a list as the fields that are left, of which there are `count` before. -/
def readItems (shape : Shape σ α) (depth count : Nat) : List (Field σ) → σ → Json.Reader σ
  | [], s, text => .ok (s, text)
  | field :: more, s, text => do
    match ← Json.nextItem (count == 0) text with
    | .done rest =>
      if shape.isFull then .error (listFault rest (shape.tooShort count)) else .ok (s, rest)
    | .more rest =>
      let (change, rest) ← field.fill.read depth rest
      readItems shape depth (count + 1) more (change s) rest

def readFields (shape : Shape σ α) (depth : Nat) : Json.Reader α := fun text => do
  let (s, rest) ← readItems shape depth 0 shape.fields shape.start text
  match shape.finished s with
  | .error m => .error (listFault rest m)
  | .ok record => .ok (record, ← Json.closeList rest)

def readRecord (shape : Shape σ α) (depth : Nat) : Json.Reader α := fun text =>
  match Json.skipSpace text with
  | '{' :: rest => deeper depth ('{' :: rest) fun depth => readObject shape depth rest
  | '[' :: rest => deeper depth ('[' :: rest) fun depth => readFields shape depth rest
  | text => refuse (.record shape.title) text

/-! ## From JSON values -/

/-- The members of a JSON object, put into a record one after the other. -/
def jsonMembers (shape : Shape σ α) : List (Text × Json) → σ → Except (Mismatch Json.Found) σ
  | [], s => .ok s
  | (key, v) :: more, s =>
    match shape.field? key with
    | none =>
      if shape.isClosed then .error (.unknownField key shape.names) else jsonMembers shape more s
    | some field => do
      let change ← field.fill.ofJson v
      jsonMembers shape more (change s)

/-- The items of a JSON list as the fields that are left, of which there are `count` before; what
remains of the items is given back. -/
def jsonItems (shape : Shape σ α) (count : Nat) :
    List (Field σ) → List Json → σ → Except (Mismatch Json.Found) (σ × List Json)
  | [], items, s => .ok (s, items)
  | _ :: _, [], s => if shape.isFull then .error (shape.tooShort count) else .ok (s, [])
  | field :: more, v :: items, s => do
    let change ← field.fill.ofJson v
    jsonItems shape (count + 1) more items (change s)

def jsonRecord (shape : Shape σ α) : Json → Except (Mismatch Json.Found) α
  | .object fields => do shape.finished (← jsonMembers shape fields shape.start)
  | .array items => do
    let (s, more) ← jsonItems shape 0 shape.fields items shape.start
    let record ← shape.finished s
    if more.isEmpty then .ok record else .error (.length items.length .fewer)
  | v => wrongJson v (.record shape.title)

/-! ## From settings -/

/-- The fields of a table, put into a record one after the other. -/
def settingFields (shape : Shape σ α) : List (Text × Setting) → σ → Except Setting.Fault σ
  | [], s => .ok s
  | (key, v) :: more, s =>
    match shape.field? key with
    | none =>
      if shape.isClosed then .error ⟨[key], .unknownField key shape.names⟩
      else settingFields shape more s
    | some field => do
      let change ← (field.fill.ofSetting v).mapError (Setting.Fault.inside key)
      settingFields shape more (change s)

/-- The items of a list of settings as the fields that are left, of which there are `count` before. -/
def settingItems (shape : Shape σ α) (count : Nat) :
    List (Field σ) → List Setting → σ → Except Setting.Fault σ
  | [], _, s => .ok s
  | _ :: _, [], s => if shape.isFull then .error (.here (shape.tooShort count)) else .ok s
  | field :: more, v :: items, s => do
    let change ← (field.fill.ofSetting v).mapError (Setting.Fault.inside (Text.ofNat count))
    settingItems shape (count + 1) more items (change s)

def settingRecord (shape : Shape σ α) : Setting → Except Setting.Fault α
  | .table fields => do
    (shape.finished (← settingFields shape fields shape.start)).mapError Setting.Fault.here
  | .list items => do
    (shape.finished (← settingItems shape 0 shape.fields items shape.start)).mapError
      Setting.Fault.here
  | s => wrongSetting s (.record shape.title)

/-! ## All forms -/

def record (shape : Shape σ α) : Decoder α where
  read := readRecord shape
  ofJson := jsonRecord shape
  ofSetting := settingRecord shape

end Decoder

end AmdBundle
