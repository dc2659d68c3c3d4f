import AmdBundle.Json.Frame

/-!
# Reading JSON text

* `scalar?` : a value that is not a list or an object;
* `value` : a value with at most a given number of brackets around each other;
* `parse` : a text that is one value.

Lists and objects may be nested `depthLimit` deep. A key that occurs twice keeps its first place and
its last value.
-/

set_option autoImplicit false

namespace AmdBundle.Json

/-- How deep lists and objects may be nested. -/
def depthLimit : Nat := 127

/-- A null, boolean, number or string that begins with `c`; none if no such value begins so. -/
def scalar? (c : Char) (rest : Text) : Option (Except Fault (Json × Text)) :=
  if c = 'n' then some ((word ['u', 'l', 'l'] rest).map fun rest => (.null, rest))
  else if c = 't' then some ((word ['r', 'u', 'e'] rest).map fun rest => (.bool true, rest))
  else if c = 'f' then some ((word ['a', 'l', 's', 'e'] rest).map fun rest => (.bool false, rest))
  else if c = '"' then
    some ((readString rest).map fun found => (.string found.1, found.2))
  else if c = '-' then
    some ((readNumber false rest).map fun found => (.number found.1, found.2))
  else if c.isDigit then
    some ((readNumber true (c :: rest)).map fun found => (.number found.1, found.2))
  else none

/-- The reader inside a bracket, unless the brackets are too deep. -/
def deeper {α β : Type} (inner : Option α) (text : Text) (read : α → Except Fault β) :
    Except Fault β :=
  match inner with
  | none => .error (.looking text .tooDeep)
  | some inner => read inner

/-- A value whose items and members are read by `inner`. -/
def valueWith (inner : Option (Reader Json)) : Reader Json := fun text =>
  match skipSpace text with
  | [] => .error (.looking [] .endInValue)
  | c :: rest =>
    match scalar? c rest with
    | some found => found
    | none =>
      if c = '[' then
        deeper inner (c :: rest) fun read =>
          (items read rest).map fun found => (.array found.1, found.2)
      else if c = '{' then
        deeper inner (c :: rest) fun read =>
          (members read rest).map fun found => (.object (ofPairs found.1), found.2)
      else .error (.looking (c :: rest) .noValue)

/-- A value with at most `depth` brackets around each other. -/
def value : Nat → Reader Json
  | 0 => valueWith none
  | depth + 1 => valueWith (some (value depth))

/-- What a reader takes from a whole text, behind which only blanks may stand. -/
def whole {α : Type} (read : Reader α) (text : Text) : Except Fault α := do
  let (found, rest) ← read text
  match skipSpace rest with
  | [] => .ok found
  | c :: rest => .error (.looking (c :: rest) .trailingText)

def parse (text : Text) : Except Fault Json :=
  whole (value depthLimit) text

end AmdBundle.Json
