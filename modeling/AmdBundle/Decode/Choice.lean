import AmdBundle.Decode.Basic

/-!
# Choices

One of some values, written as its name, or as an object with the name as its only key and null as
its value.

* `Choices` : the values and their names; `Decoder.choice` : their decoder.
-/

set_option autoImplicit false

namespace AmdBundle

structure Choices (α : Type) where
  title : String
  all : List α
  name : α → String

namespace Choices

def names {α : Type} (cs : Choices α) : List String :=
  cs.all.map cs.name

def find? {α : Type} (cs : Choices α) (name : Text) : Option α :=
  cs.all.find? fun a => (cs.name a).toList = name

/-- The value of that name, else the mismatch. -/
def named {α φ : Type} (cs : Choices α) (name : Text) : Except (Mismatch φ) α :=
  match cs.find? name with
  | some a => .ok a
  | none => .error (.unknownChoice name cs.names)

end Choices

namespace Decoder

/-- The value of a name in text. -/
def readName {α : Type} (cs : Choices α) (wanted : Wanted) : Json.Reader α := fun text => do
  let (name, rest) ← readText wanted text
  match cs.named name with
  | .ok a => .ok (a, rest)
  | .error m => .error (.after rest (.mismatch m))

def readNothing : Json.Reader Unit := fun text =>
  match Json.skipSpace text with
  | 'n' :: rest => (Json.word ['u', 'l', 'l'] rest).map fun rest => ((), rest)
  | text => refuse .nothing text

/-- A value with its name as the key of an object, after the opening brace. -/
def readNamed {α : Type} (cs : Choices α) : Json.Reader α := fun text => do
  let (a, rest) ← readName cs .choiceName text
  let ((), rest) ← readNothing (← Json.colon rest)
  match Json.skipSpace rest with
  | [] => .error (.after [] .endInObject)
  | c :: rest => if c = '}' then .ok (a, rest) else .error (.after (c :: rest) .noValue)

def choice {α : Type} (cs : Choices α) : Decoder α where
  read := fun depth text =>
    match Json.skipSpace text with
    | [] => .error (.looking [] .endInValue)
    | '"' :: rest => readName cs .choiceName ('"' :: rest)
    | '{' :: rest => deeper depth ('{' :: rest) fun _ => readNamed cs rest
    | text => .error (.looking text .noValue)
  ofJson
    | .string name => cs.named name
    | .object [(name, v)] => do
      let a ← cs.named name
      match v with
      | .null => .ok a
      | v => wrongJson v .nothing
    | .object _ => .error (.value .map .singleEntry)
    | v => wrongJson v .nameOrMap
  ofSetting
    | .text name => (cs.named name).mapError Setting.Fault.here
    | .table [] => .error (.here (.kind .table .anyChoice))
    | .table ((name, s) :: _) =>
      (do
        let a ← (cs.named name).mapError Setting.Fault.here
        match s with
        | .unset => .ok a
        | s => wrongSetting s .nothing).mapError (Setting.Fault.inside name)
    | s => wrongSetting s (.choice cs.title)

end Decoder

end AmdBundle
