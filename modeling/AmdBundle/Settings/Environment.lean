import AmdBundle.Number.Decimal
import AmdBundle.Settings.Value
import AmdBundle.Text.Classes
import AmdBundle.Text.Utf8

/-!
# Settings from the environment

A variable whose name begins with `AMDPACK_` sets a field. Its name is the name of the field in
words, with an underscore before every word but the first; the case of letters does not count.

* `fieldOf?` : the field of a name behind the common beginning;
* `readValue` : a value is a boolean, a string in quotes, a letter, a list in brackets, a table in
  braces, or else plain text, which may be a number;
* `valueOf` : the value of a variable; one that is none of these as a whole is plain text.
-/

set_option autoImplicit false

namespace AmdBundle.Settings.Environment

/-! ## Names -/

/-- The beginning of the names of all variables. -/
def beginning : Text :=
  "AMDPACK_".toList

/-- The fields that a variable may set. -/
def fields : List String :=
  ["input", "outFile", "target", "exportAs", "entryPoint", "projectRoot", "watch", "compiler",
    "debounceMs", "settleTickMs", "settleTimeoutMs"]

/-- Small letters, but a capital behind underscores; `atWord` after an underscore. -/
def camelCase (atWord : Bool) : Text → Text
  | [] => []
  | c :: rest =>
    if c = '_' then camelCase true rest
    else (if atWord then Text.upperChar c else Text.lowerChar c) :: camelCase false rest

/-- The field of a name behind the common beginning. -/
def fieldOf? (key : Text) : Option Text :=
  let field := camelCase false key
  if fields.any fun f => f.toList == field then some field else none

/-- The field of the name of a variable; blanks around the name do not count. -/
def fieldOfVariable? (name : Text) : Option Text :=
  let name := Text.trim Text.isBlank name
  if Text.asciiLower (name.take beginning.length) = Text.asciiLower beginning then
    fieldOf? (name.drop beginning.length)
  else none

/-! ## Plain text -/

def isSpace (c : Char) : Bool :=
  c == ' ' || c == '\t' || c == '\n' || c == '\r' || c.toNat == 12

def skipSpace (text : Text) : Text :=
  text.dropWhile isSpace

/-- A character that plain text may have. -/
def isPlain (c : Char) : Bool :=
  !(c == ',' || c == '{' || c == '}' || c == '[' || c == ']')

/-- The value of digits below a limit. -/
def digitsBelow? (limit : Nat) (digits : Text) : Option Nat :=
  if digits.isEmpty || !digits.all Char.isDigit then none
  else if Number.digitsValue digits < limit then some (Number.digitsValue digits) else none

/-- A whole number of 64 bits, with a sign where it is negative. -/
def wholeNumber? (text : Text) : Option Setting :=
  match text with
  | '-' :: digits => (digitsBelow? (Nat.pow 2 63 + 1) digits).map fun n => .signed (-n)
  | '+' :: digits => (digitsBelow? (Nat.pow 2 64) digits).map .natural
  | digits => (digitsBelow? (Nat.pow 2 64) digits).map .natural

def fraction? (text : Text) : Option Setting :=
  if text.contains '.' then (Number.Spelled.parse? text).map fun s => .fraction s.text else none

/-- Plain text: a number if it is spelled like one. -/
def plainValue (text : Text) : Setting :=
  ((fraction? text).orElse fun _ => wholeNumber? text).getD (.text text)

/-! ## Strings in quotes -/

/-- A character that a string may hold as it is. -/
def isLegal (c : Char) : Bool :=
  c == '\t' || (32 ≤ c.toNat && c.toNat != 127)

def hexValue? (c : Char) : Option Nat :=
  if '0' ≤ c ∧ c ≤ '9' then some (c.toNat - 48)
  else if 'a' ≤ c ∧ c ≤ 'f' then some (c.toNat - 87)
  else if 'A' ≤ c ∧ c ≤ 'F' then some (c.toNat - 55)
  else none

/-- The value of so many hexadecimal digits, and the text behind them. -/
def readHex : Nat → Nat → Text → Option (Nat × Text)
  | 0, n, text => some (n, text)
  | _ + 1, _, [] => none
  | count + 1, n, c :: rest => (hexValue? c).bind fun d => readHex count (n * 16 + d) rest

/-- The character of an escape and the text behind it. -/
def readEscape : Text → Option (Char × Text)
  | [] => none
  | c :: rest =>
    if c = '"' ∨ c = '\\' then some (c, rest)
    else if c = 'b' then some (Char.ofNat 8, rest)
    else if c = 'f' then some (Char.ofNat 12, rest)
    else if c = 'n' then some ('\n', rest)
    else if c = 'r' then some ('\r', rest)
    else if c = 't' then some ('\t', rest)
    else if c = 'u' ∨ c = 'U' then
      (readHex (if c = 'u' then 4 else 8) 0 rest).bind fun found =>
        if found.1.isValidChar then some (Char.ofNat found.1, found.2) else none
    else none

/-- A string behind its opening quote; `fuel` is more than the length of the text. -/
def readStringFrom : Nat → Text → Option (Text × Text)
  | 0, _ => none
  | _ + 1, [] => none
  | fuel + 1, c :: rest =>
    if c = '"' then some ([], rest)
    else if c = '\\' then do
      let (d, rest) ← readEscape rest
      let (more, rest) ← readStringFrom fuel rest
      some (d :: more, rest)
    else if isLegal c then
      (readStringFrom fuel rest).map fun found => (c :: found.1, found.2)
    else none

/-- A character that may stand in front of the first escape of a string. -/
def isOrdinary (c : Char) : Bool :=
  isLegal c && c != '"' && c != '\\'

/-- A string behind its opening quote. In front of a first escape as many bytes are kept as there are
characters, so a front of ASCII is kept whole. -/
def readString (text : Text) : Option (Text × Text) :=
  let front := text.takeWhile isOrdinary
  match text.dropWhile isOrdinary with
  | '"' :: rest => some (front, rest)
  | '\\' :: rest =>
    (readStringFrom (rest.length + 2) ('\\' :: rest)).map fun found =>
      (Text.takeBytes front.length front ++ found.1, found.2)
  | _ => none

/-! ## Lists and tables -/

/-- The items up to a closing bracket, with commas between them and perhaps behind them; `fuel` is
more than the length of the text. -/
def readItems {α : Type} (read : Text → Option (α × Text)) (stop : Char) :
    Nat → Text → Option (List α × Text)
  | 0, _ => none
  | _ + 1, [] => none
  | fuel + 1, c :: rest =>
    if c = stop then some ([], rest)
    else do
      let (item, rest) ← read (c :: rest)
      match rest with
      | [] => none
      | d :: rest =>
        if d = stop then some ([item], rest)
        else if d = ',' then
          let (more, rest) ← readItems read stop fuel rest
          some (item :: more, rest)
        else none

/-- A character of a key without quotes. -/
def isKeyChar (c : Char) : Bool :=
  c.isAlphanum || c == '_' || c == '-'

def readKey : Text → Option (Text × Text)
  | '"' :: rest => readString rest
  | text =>
    let key := text.takeWhile isKeyChar
    if key.isEmpty then none else some (key, text.dropWhile isKeyChar)

/-- A key, an equals sign and a value. -/
def readMember (read : Text → Option (Setting × Text)) (text : Text) :
    Option ((Text × Setting) × Text) := do
  let (key, rest) ← readKey (skipSpace text)
  match skipSpace rest with
  | '=' :: rest =>
    let (value, rest) ← read rest
    some ((key, value), rest)
  | _ => none

/-- The members of a table by name. -/
def tableOf (members : List (Text × Setting)) : Setting :=
  .table (members.foldl (fun table m => Setting.insert m.1 m.2 table) [])

/-- A value without the blanks around it; `inner` reads what is inside brackets. -/
def readBare (inner : Text → Option (Setting × Text)) (text : Text) : Option (Setting × Text) :=
  match Text.dropWord "true".toList text, Text.dropWord "false".toList text, text with
  | some rest, _, _ => some (.flag true, rest)
  | _, some rest, _ => some (.flag false, rest)
  | _, _, '{' :: rest =>
    (readItems (readMember inner) '}' (rest.length + 1) rest).map fun found =>
      (tableOf found.1, found.2)
  | _, _, '[' :: rest =>
    (readItems inner ']' (rest.length + 1) rest).map fun found => (.list found.1, found.2)
  | _, _, '"' :: rest => (readString rest).map fun found => (.text found.1, found.2)
  | _, _, '\'' :: c :: '\'' :: rest => some (.letter c, rest)
  | _, _, '\'' :: _ => none
  | _, _, text =>
    some (plainValue (Text.trim Text.isBlank (text.takeWhile isPlain)), text.dropWhile isPlain)

/-- A value and the blanks around it; `fuel` is more than the length of the text. -/
def readValue : Nat → Text → Option (Setting × Text)
  | 0, _ => none
  | fuel + 1, text =>
    (readBare (readValue fuel) (skipSpace text)).map fun found => (found.1, skipSpace found.2)

def valueOf (text : Text) : Setting :=
  match readValue (text.length + 1) text with
  | some (value, []) => value
  | _ => .text text

end AmdBundle.Settings.Environment
