import AmdBundle.Json.Reader
import AmdBundle.RelaxedJson.Token

/-!
# Reading relaxed JSON text

Commas between items and between members may be missing, one may stand behind the last of them, and a
word or a number may be the name of a member. A text without any value is allowed. A number that is
too great stays a string.

* `value` : the value that begins with a token; `parse` : the value of a whole text, if it has one.
-/

set_option autoImplicit false

namespace AmdBundle.RelaxedJson

/-- A reader takes a value from the front of the tokens. -/
abbrev Reader (α : Type) := Tokens → Except Fault (α × Tokens)

/-- The tokens without a comma in front. -/
def dropComma : Tokens → Tokens
  | .next .comma _ rest => rest
  | all => all

def numberValue (spelling : Text) : Json :=
  match Json.parse spelling with
  | .ok v => v
  | .error _ => .string spelling

/-- A token that may be the name of a member. -/
def nameOf? : Token → Option Text
  | .string value => some value
  | .word spelling => some spelling
  | .number spelling => some spelling
  | _ => none

/-- The items of a list up to its closing bracket; from its opening one on the text has `opening`
characters, and `fuel` is more than the number of tokens. -/
def items (read : Token → Nat → Reader Json) (opening : Nat) : Nat → Reader (List Json)
  | 0, _ => .error ⟨.openArray, opening⟩
  | _ + 1, .done => .error ⟨.openArray, opening⟩
  | _ + 1, .broken fault => .error fault
  | fuel + 1, .next token left rest =>
    if token = .closeBracket then .ok ([], rest)
    else do
      let (item, rest) ← read token left rest
      let (more, rest) ← items read opening fuel (dropComma rest)
      .ok (item :: more, rest)

/-- What follows the name of a member: a colon and a value. -/
def memberValue (read : Token → Nat → Reader Json) : Reader Json
  | .next .colon _ (.next token left rest) => read token left rest
  | .next .colon _ .done => .error ⟨.noPropertyValue, 0⟩
  | .next .colon _ (.broken fault) => .error fault
  | .next _ left _ => .error ⟨.noColon, left⟩
  | .done => .error ⟨.noColon, 0⟩
  | .broken fault => .error fault

/-- The members of an object up to its closing brace; from its opening one on the text has `opening`
characters, and `fuel` is more than the number of tokens. -/
def members (read : Token → Nat → Reader Json) (opening : Nat) : Nat → Reader (List (Text × Json))
  | 0, _ => .error ⟨.openObject, opening⟩
  | _ + 1, .done => .error ⟨.openObject, opening⟩
  | _ + 1, .broken fault => .error fault
  | fuel + 1, .next token left rest =>
    if token = .closeBrace then .ok ([], rest)
    else
      match nameOf? token with
      | none => .error ⟨.noPropertyName, left⟩
      | some name => do
        let (item, rest) ← memberValue read rest
        let (more, rest) ← members read opening fuel (dropComma rest)
        .ok ((name, item) :: more, rest)

/-- The value that begins with a token, from which on the text has `left` characters; `fuel` is more
than the number of tokens behind it. -/
def value : Nat → Token → Nat → Reader Json
  | 0, _, left, _ => .error ⟨.unexpectedToken, left⟩
  | fuel + 1, token, left, rest =>
    match token with
    | .null => .ok (.null, rest)
    | .bool b => .ok (.bool b, rest)
    | .number spelling => .ok (numberValue spelling, rest)
    | .string s => .ok (.string s, rest)
    | .openBracket =>
      (items (value fuel) left (rest.count + 1) rest).map fun found => (.array found.1, found.2)
    | .openBrace =>
      (members (value fuel) left (rest.count + 1) rest).map fun found =>
        (.object (Json.ofPairs found.1), found.2)
    | .closeBracket => .error ⟨.unexpectedCloseBracket, left⟩
    | .closeBrace => .error ⟨.unexpectedCloseBrace, left⟩
    | .comma => .error ⟨.unexpectedComma, left⟩
    | .colon => .error ⟨.unexpectedColon, left⟩
    | .word _ => .error ⟨.unexpectedWord, left⟩

/-- The value of a text, none if there is nothing but blanks and comments. -/
def parse (text : Text) : Except Fault (Option Json) :=
  match tokens text with
  | .done => .ok none
  | .broken fault => .error fault
  | .next token left rest => do
    match ← value (rest.count + 1) token left rest with
    | (v, .done) => .ok (some v)
    | (_, .broken fault) => .error fault
    | (_, .next _ left _) => .error ⟨.secondValue, left⟩

end AmdBundle.RelaxedJson
