import AmdBundle.Json.Lexeme

/-!
# Brackets, commas and colons of JSON text

* `nextItem` : is there another item in a list; `closeList` : its closing bracket;
* `nextKey` : is there another key in an object; `colon` : what stands between key and value;
  `closeObject` : its closing brace;
* `items` : all items of a list; `members` : all members of an object.
-/

set_option autoImplicit false

namespace AmdBundle.Json

inductive Next where
  | more (rest : Text)
  /-- The closing bracket, with which the text begins. -/
  | done (rest : Text)
  deriving DecidableEq, Repr

/-! ## Lists -/

/-- What comes next in a list, of which no item was read yet if `first`. -/
def nextItem (first : Bool) (text : Text) : Except Fault Next :=
  match skipSpace text with
  | [] => .error (.looking [] .endInList)
  | c :: rest =>
    if c = ']' then .ok (.done (c :: rest))
    else if first then .ok (.more (c :: rest))
    else if c = ',' then
      match skipSpace rest with
      | [] => .error (.looking [] .endInValue)
      | d :: rest =>
        if d = ']' then .error (.looking (d :: rest) .trailingComma) else .ok (.more (d :: rest))
    else .error (.looking (c :: rest) .noListEnd)

/-- The text behind the closing bracket of a list. -/
def closeList (text : Text) : Except Fault Text :=
  match skipSpace text with
  | [] => .error (.looking [] .endInList)
  | c :: rest =>
    if c = ']' then .ok rest
    else if c = ',' then
      match skipSpace rest with
      | [] => .error (.looking [] .trailingText)
      | d :: rest =>
        .error (.looking (d :: rest) (if d = ']' then .trailingComma else .trailingText))
    else .error (.looking (c :: rest) .trailingText)

/-- The items of a list up to its closing bracket; `fuel` is more than the length of the text. -/
def itemsFrom {α : Type} (read : Reader α) : Nat → Bool → Reader (List α)
  | 0, _, text => .error (.looking text .endInList)
  | fuel + 1, first, text => do
    match ← nextItem first text with
    | .done rest => .ok ([], rest)
    | .more rest =>
      let (item, rest) ← read rest
      let (more, rest) ← itemsFrom read fuel false rest
      .ok (item :: more, rest)

def items {α : Type} (read : Reader α) : Reader (List α) := fun text => do
  let (all, rest) ← itemsFrom read (text.length + 1) true text
  .ok (all, ← closeList rest)

/-! ## Objects -/

/-- What comes next in an object, of which no member was read yet if `first`. -/
def nextKey (first : Bool) (text : Text) : Except Fault Next :=
  match skipSpace text with
  | [] => .error (.looking [] .endInObject)
  | c :: rest =>
    if c = '}' then .ok (.done (c :: rest))
    else if first then
      if c = '"' then .ok (.more (c :: rest)) else .error (.looking (c :: rest) .keyNoString)
    else if c = ',' then
      match skipSpace rest with
      | [] => .error (.looking [] .endInValue)
      | d :: rest =>
        if d = '"' then .ok (.more (d :: rest))
        else .error (.looking (d :: rest) (if d = '}' then .trailingComma else .keyNoString))
    else .error (.looking (c :: rest) .noObjectEnd)

/-- The text behind the colon between key and value. -/
def colon (text : Text) : Except Fault Text :=
  match skipSpace text with
  | [] => .error (.looking [] .endInObject)
  | c :: rest => if c = ':' then .ok rest else .error (.looking (c :: rest) .noColon)

/-- The text behind the closing brace of an object. -/
def closeObject (text : Text) : Except Fault Text :=
  match skipSpace text with
  | [] => .error (.looking [] .endInObject)
  | c :: rest =>
    if c = '}' then .ok rest
    else .error (.looking (c :: rest) (if c = ',' then .trailingComma else .trailingText))

/-- The members of an object up to its closing brace; `fuel` is more than the length of the text. -/
def membersFrom {α : Type} (read : Reader α) : Nat → Bool → Reader (List (Text × α))
  | 0, _, text => .error (.looking text .endInObject)
  | fuel + 1, first, text => do
    match ← nextKey first text with
    | .done rest => .ok ([], rest)
    | .more rest =>
      let (key, rest) ← readString (rest.drop 1)
      let rest ← colon rest
      let (value, rest) ← read rest
      let (more, rest) ← membersFrom read fuel false rest
      .ok ((key, value) :: more, rest)

def members {α : Type} (read : Reader α) : Reader (List (Text × α)) := fun text => do
  let (all, rest) ← membersFrom read (text.length + 1) true text
  .ok (all, ← closeObject rest)

end AmdBundle.Json
