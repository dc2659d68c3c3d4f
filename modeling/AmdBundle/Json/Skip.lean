import AmdBundle.Json.Frame

/-!
# Skipping JSON values

A value that nobody wants is passed over and not built. Brackets may be nested without limit, and
numbers may be of any size; a comma asks for one more item.

* `skipString`, `skipNumber` : the small values;
* `skip` : any value.
-/

set_option autoImplicit false

namespace AmdBundle.Json

/-! ## Strings -/

/-- The text behind an escape, from the character after its backslash on. -/
def skipEscape : Text → Except Fault Text
  | [] => .error (.after [] .endInString)
  | c :: rest =>
    if c = 'u' then (readQuad rest).map Prod.snd
    else if (shortEscape c).isSome then .ok rest
    else .error (.looking (c :: rest) .badEscape)

/-- The text behind a string, from the character after its opening quote on; `fuel` is more than the
length of the text. -/
def skipStringFrom : Nat → Text → Except Fault Text
  | 0, text => .error (.after text .endInString)
  | _ + 1, [] => .error (.after [] .endInString)
  | fuel + 1, c :: rest =>
    if c = '"' then .ok rest
    else if c = '\\' then do skipStringFrom fuel (← skipEscape rest)
    else if c.toNat < 32 then .error (.after (c :: rest) .controlCharacter)
    else skipStringFrom fuel rest

/-- The text behind a string, from the character after its opening quote on. -/
def skipString (text : Text) : Except Fault Text :=
  skipStringFrom (text.length + 1) text

/-! ## Numbers -/

/-- The text behind an exponent, from the character after its letter on. -/
def skipExponent (text : Text) : Except Fault Text :=
  match (exponentSign text).2 with
  | [] => .error (.looking [] .badNumber)
  | c :: rest =>
    if c.isDigit then .ok (rest.dropWhile Char.isDigit)
    else .error (.looking (c :: rest) .badNumber)

/-- The text behind the end of a number, from the character after its digits on. -/
def skipTail : Text → Except Fault Text
  | 'e' :: rest => skipExponent rest
  | 'E' :: rest => skipExponent rest
  | rest => .ok rest

/-- The text behind a fraction, from the character after its point on. -/
def skipFraction (text : Text) : Except Fault Text :=
  if (text.takeWhile Char.isDigit).isEmpty then .error (.looking text .badNumber)
  else skipTail (text.dropWhile Char.isDigit)

/-- The text behind what follows the digits before the point of a number. -/
def skipAfterWhole : Text → Except Fault Text
  | '.' :: rest => skipFraction rest
  | rest => skipTail rest

/-- The text behind a number, from the character after its sign on. -/
def skipNumber : Text → Except Fault Text
  | [] => .error (.looking [] .badNumber)
  | c :: rest =>
    if c = '0' then
      if (rest.takeWhile Char.isDigit).isEmpty then skipAfterWhole rest
      else .error (.looking rest .badNumber)
    else if c.isDigit then skipAfterWhole (rest.dropWhile Char.isDigit)
    else .error (.looking (c :: rest) .badNumber)

/-! ## Lists and objects -/

/-- The text behind a list of which the next item comes now. -/
def skipItems (skipOne : Text → Except Fault Text) : Nat → Text → Except Fault Text
  | 0, text => .error (.looking text .endInList)
  | fuel + 1, text => do
    match skipSpace (← skipOne text) with
    | [] => .error (.looking [] .endInList)
    | c :: rest =>
      if c = ']' then .ok rest
      else if c = ',' then skipItems skipOne fuel rest
      else .error (.looking (c :: rest) .noListEnd)

/-- The text behind a list, from the character after its bracket on. -/
def skipList (skipOne : Text → Except Fault Text) (text : Text) : Except Fault Text :=
  match skipSpace text with
  | [] => .error (.looking [] .endInList)
  | c :: rest => if c = ']' then .ok rest else skipItems skipOne (text.length + 1) (c :: rest)

/-- The text behind a key and its colon. -/
def skipKey (text : Text) : Except Fault Text :=
  match skipSpace text with
  | [] => .error (.looking [] .endInObject)
  | c :: rest =>
    if c = '"' then do colon (← skipString rest) else .error (.looking (c :: rest) .keyNoString)

/-- The text behind an object of which the next member comes now. -/
def skipMembers (skipOne : Text → Except Fault Text) : Nat → Text → Except Fault Text
  | 0, text => .error (.looking text .endInObject)
  | fuel + 1, text => do
    match skipSpace (← skipOne (← skipKey text)) with
    | [] => .error (.looking [] .endInObject)
    | c :: rest =>
      if c = '}' then .ok rest
      else if c = ',' then skipMembers skipOne fuel rest
      else .error (.looking (c :: rest) .noObjectEnd)

/-- The text behind an object, from the character after its brace on. -/
def skipObject (skipOne : Text → Except Fault Text) (text : Text) : Except Fault Text :=
  match skipSpace text with
  | [] => .error (.looking [] .endInObject)
  | c :: rest => if c = '}' then .ok rest else skipMembers skipOne (text.length + 1) (c :: rest)

/-- The text behind a value; `fuel` is more than the length of the text. -/
def skipFrom : Nat → Text → Except Fault Text
  | 0, text => .error (.looking text .endInValue)
  | fuel + 1, text =>
    match skipSpace text with
    | [] => .error (.looking [] .endInValue)
    | c :: rest =>
      if c = 'n' then word ['u', 'l', 'l'] rest
      else if c = 't' then word ['r', 'u', 'e'] rest
      else if c = 'f' then word ['a', 'l', 's', 'e'] rest
      else if c = '"' then skipString rest
      else if c = '-' then skipNumber rest
      else if c.isDigit then skipNumber (c :: rest)
      else if c = '[' then skipList (skipFrom fuel) rest
      else if c = '{' then skipObject (skipFrom fuel) rest
      else .error (.looking (c :: rest) .noValue)

def skip (text : Text) : Except Fault Text :=
  skipFrom (text.length + 1) text

end AmdBundle.Json
