import AmdBundle.Json.Fault

/-!
# The smallest parts of JSON text

* `skipSpace` : the four blank characters of JSON;
* `word` : the rest of `null`, `true` or `false`;
* `stringBody` : a string after its opening quote; `readEscape` : one escape after its backslash;
* `readNumber` : a number after its sign.

A number without fraction and exponent stays whole while it fits into 64 bits. Any other number
collects its digits in a 64 bit significand and drops what does not fit: a dropped digit before the
point counts in the exponent, one behind it is lost. The significand is then scaled once by a power
of ten.
-/

set_option autoImplicit false

namespace AmdBundle.Json

/-! ## Blanks and words -/

def isSpace (c : Char) : Bool :=
  c == ' ' || c == '\n' || c == '\t' || c == '\r'

def skipSpace (text : Text) : Text :=
  text.dropWhile isSpace

/-- The text behind the letters of a word. -/
def word : Text → Text → Except Fault Text
  | [], text => .ok text
  | _ :: _, [] => .error (.after [] .endInValue)
  | w :: ws, c :: rest =>
    if c = w then word ws rest else .error (.looking (c :: rest) .noLiteral)

/-! ## Strings -/

def hexValue (c : Char) : Option Nat :=
  if '0' ≤ c ∧ c ≤ '9' then some (c.toNat - 48)
  else if 'a' ≤ c ∧ c ≤ 'f' then some (c.toNat - 87)
  else if 'A' ≤ c ∧ c ≤ 'F' then some (c.toNat - 55)
  else none

def hexQuad (a b c d : Char) : Option Nat := do
  let p ← hexValue a
  let q ← hexValue b
  let r ← hexValue c
  let s ← hexValue d
  some (((p * 16 + q) * 16 + r) * 16 + s)

/-- The fault of four bytes that are no hexadecimal digits: they are taken before it shows. -/
def badQuad (text : Text) : Fault :=
  if Text.byteLength text < 4 then .after [] .endInString
  else ⟨.badEscape, Text.byteLength text - 4⟩

def readQuad : Reader Nat
  | a :: b :: c :: d :: rest =>
    match hexQuad a b c d with
    | some n => .ok (n, rest)
    | none => .error (badQuad (a :: b :: c :: d :: rest))
  | text => .error (badQuad text)

/-- The first half of a surrogate pair. -/
def isLeading (n : Nat) : Bool :=
  0xD800 ≤ n && n ≤ 0xDBFF

/-- The second half of a surrogate pair. -/
def isTrailing (n : Nat) : Bool :=
  0xDC00 ≤ n && n ≤ 0xDFFF

/-- The second half of a surrogate pair after the first one. -/
def readTrailing (leading : Nat) : Reader Char
  | [] => .error (.after [] .endInString)
  | c :: rest =>
    if c ≠ '\\' then .error (.looking (c :: rest) .unfinishedSurrogate)
    else
      match rest with
      | [] => .error (.after [] .endInString)
      | d :: rest =>
        if d ≠ 'u' then .error (.looking (d :: rest) .unfinishedSurrogate)
        else do
          let (n, rest) ← readQuad rest
          if isTrailing n then
            .ok (Char.ofNat (0x10000 + (leading - 0xD800) * 0x400 + (n - 0xDC00)), rest)
          else .error (.after rest .loneSurrogate)

/-- The character of an escape that is one letter. -/
def shortEscape (c : Char) : Option Char :=
  if c = '"' then some '"'
  else if c = '\\' then some '\\'
  else if c = '/' then some '/'
  else if c = 'b' then some (Char.ofNat 8)
  else if c = 'f' then some (Char.ofNat 12)
  else if c = 'n' then some '\n'
  else if c = 'r' then some '\r'
  else if c = 't' then some '\t'
  else none

/-- The character of an escape after its backslash. -/
def readEscape : Reader Char
  | [] => .error (.after [] .endInString)
  | c :: rest =>
    match shortEscape c with
    | some d => .ok (d, rest)
    | none =>
      if c ≠ 'u' then .error (.looking (c :: rest) .badEscape)
      else do
        let (n, rest) ← readQuad rest
        if isTrailing n then .error (.after rest .loneSurrogate)
        else if isLeading n then readTrailing n rest
        else .ok (Char.ofNat n, rest)

/-- A string after its opening quote; `fuel` is at least its length. -/
def stringBody : Nat → Reader Text
  | 0, text => .error (.after text .endInString)
  | _ + 1, [] => .error (.after [] .endInString)
  | fuel + 1, c :: rest =>
    if c = '"' then .ok ([], rest)
    else if c = '\\' then do
      let (d, rest) ← readEscape rest
      let (more, rest) ← stringBody fuel rest
      .ok (d :: more, rest)
    else if c.toNat < 32 then .error (.after rest .controlCharacter)
    else do
      let (more, rest) ← stringBody fuel rest
      .ok (c :: more, rest)

def readString : Reader Text := fun text =>
  stringBody (text.length + 1) text

/-! ## Numbers -/

/-- The greatest number of 64 bits. -/
def wordLimit : Nat := Nat.pow 2 64 - 1

/-- The greatest exponent that is still counted. -/
def exponentLimit : Nat := Nat.pow 2 31 - 1

def digitValue (c : Char) : Nat :=
  c.toNat - 48

/-- The significand with further digits as long as they fit, and the digits that do not. -/
def collect (significand : Nat) : Text → Nat × Text
  | [] => (significand, [])
  | c :: rest =>
    if wordLimit < significand * 10 + digitValue c then (significand, c :: rest)
    else collect (significand * 10 + digitValue c) rest

/-- A number of digits and a power of ten, with its sign. -/
def scaledNumber (positive : Bool) (significand : Nat) (exponent : Int) (rest : Text) :
    Except Fault (Json.Number × Text) :=
  match (Number.Binary64.ofNat significand).bind fun x => x.timesPowerOfTen exponent with
  | some x => .ok (.binary (if positive then x else x.negate), rest)
  | none => .error (.after rest .numberTooGreat)

/-- The value of exponent digits, or the text behind the digit with which it is too great. -/
def exponentValue (value : Nat) : Text → Except Text (Nat × Text)
  | [] => .ok (value, [])
  | c :: rest =>
    if !c.isDigit then .ok (value, c :: rest)
    else if exponentLimit < value * 10 + digitValue c then .error rest
    else exponentValue (value * 10 + digitValue c) rest

/-- The sign of an exponent and the text behind it. -/
def exponentSign : Text → Bool × Text
  | '+' :: rest => (true, rest)
  | '-' :: rest => (false, rest)
  | text => (true, text)

/-- The rest of a number after the letter of its exponent. -/
def readExponent (positive : Bool) (significand : Nat) (exponent : Int) : Reader Json.Number :=
  fun text =>
    let (up, digits) := exponentSign text
    match digits with
    | [] => .error (.after [] .endInValue)
    | c :: rest =>
      if !c.isDigit then .error (.looking (c :: rest) .badNumber)
      else
        match exponentValue (digitValue c) rest with
        | .ok (value, rest) =>
          scaledNumber positive significand (if up then exponent + value else exponent - value) rest
        | .error rest =>
          if significand ≠ 0 ∧ up then .error (.after rest .numberTooGreat)
          else
            .ok (.binary (if positive then .zero else Number.Binary64.zero.negate),
              rest.dropWhile Char.isDigit)

/-- The rest of a number after its digits. -/
def readTail (positive : Bool) (significand : Nat) (exponent : Int) : Reader Json.Number
  | 'e' :: rest => readExponent positive significand exponent rest
  | 'E' :: rest => readExponent positive significand exponent rest
  | rest => scaledNumber positive significand exponent rest

/-- The rest of a number after its point. -/
def readFraction (positive : Bool) (significand : Nat) (exponent : Int) : Reader Json.Number :=
  fun text =>
    let digits := text.takeWhile Char.isDigit
    let rest := text.dropWhile Char.isDigit
    if digits.isEmpty then
      .error (.looking rest (if rest.isEmpty then .endInValue else .badNumber))
    else
      let (more, lost) := collect significand digits
      readTail positive more (exponent - (digits.length - lost.length : Nat)) rest

/-- A whole number with its sign. A negative one that does not fit, and zero, are binary. -/
def wholeNumber (positive : Bool) (n : Nat) (rest : Text) : Except Fault (Json.Number × Text) :=
  if positive then .ok (.whole n, rest)
  else if n = 0 ∨ Nat.pow 2 63 < n then scaledNumber false n 0 rest
  else .ok (.whole (-(n : Int)), rest)

/-- The rest of a number after the digits before its point, of which `lost` did not fit. -/
def readAfterWhole (positive : Bool) (significand lost : Nat) : Reader Json.Number
  | '.' :: rest => readFraction positive significand lost rest
  | 'e' :: rest => readExponent positive significand lost rest
  | 'E' :: rest => readExponent positive significand lost rest
  | rest =>
    if lost = 0 then wholeNumber positive significand rest
    else scaledNumber positive significand lost rest

def readNumber (positive : Bool) : Reader Json.Number
  | [] => .error (.after [] .endInValue)
  | '0' :: rest =>
    match rest with
    | c :: _ => if c.isDigit then .error (.looking rest .badNumber) else readAfterWhole positive 0 0 rest
    | [] => readAfterWhole positive 0 0 rest
  | c :: rest =>
    if c.isDigit then
      let digits := (c :: rest).takeWhile Char.isDigit
      let (significand, lost) := collect 0 digits
      readAfterWhole positive significand lost.length ((c :: rest).dropWhile Char.isDigit)
    else .error (.looking (c :: rest) .badNumber)

end AmdBundle.Json
