import AmdBundle.Json.Mismatch
import AmdBundle.Text.Utf8

/-!
# Faults in JSON text

A fault is a cause and the number of bytes that were still unread when it showed. From that number
and the whole text follow the line and the column, a column counting bytes.

* `Fault.after rest cause` : the character before `rest` was taken;
* `Fault.looking rest cause` : the first byte of `rest` was looked at, and counts as read.
-/

set_option autoImplicit false

namespace AmdBundle.Json

/-- Why a JSON text cannot be read. -/
inductive Cause where
  | endInValue
  | endInList
  | endInObject
  | endInString
  | noValue
  | noLiteral
  | noColon
  | noListEnd
  | noObjectEnd
  | keyNoString
  | trailingComma
  | trailingText
  | badNumber
  | numberTooGreat
  | badEscape
  | controlCharacter
  | loneSurrogate
  | unfinishedSurrogate
  | tooDeep
  | mismatch (m : Mismatch Found)
  deriving DecidableEq, Repr

def Cause.message : Cause → String
  | endInValue => "EOF while parsing a value"
  | endInList => "EOF while parsing a list"
  | endInObject => "EOF while parsing an object"
  | endInString => "EOF while parsing a string"
  | noValue => "expected value"
  | noLiteral => "expected ident"
  | noColon => "expected " ++ ticked ":"
  | noListEnd => "expected " ++ ticked "," ++ " or " ++ ticked "]"
  | noObjectEnd => "expected " ++ ticked "," ++ " or " ++ ticked "\x7d"
  | keyNoString => "key must be a string"
  | trailingComma => "trailing comma"
  | trailingText => "trailing characters"
  | badNumber => "invalid number"
  | numberTooGreat => "number out of range"
  | badEscape => "invalid escape"
  | controlCharacter => "control character (\\u0000-\\u001F) found while parsing a string"
  | loneSurrogate => "lone leading surrogate in hex escape"
  | unfinishedSurrogate => "unexpected end of hex escape"
  | tooDeep => "recursion limit exceeded"
  | mismatch m => mismatchText m

/-- A cause and the number of bytes left unread. -/
structure Fault where
  cause : Cause
  /-- The bytes behind the place where it showed. -/
  left : Nat
  deriving DecidableEq, Repr

namespace Fault

/-- A fault that shows once everything before `rest` was taken. -/
def after (rest : Text) (cause : Cause) : Fault :=
  ⟨cause, Text.byteLength rest⟩

/-- A fault that shows at the first byte of `rest`. -/
def looking (rest : Text) (cause : Cause) : Fault :=
  ⟨cause, Text.byteLength rest - 1⟩

/-- The line and column after `count` bytes of a text, in line `line` and column `column`. -/
def positionAfter (line column count : Nat) : Text → Nat × Nat
  | [] => (line, column + count)
  | c :: rest =>
    if count < c.utf8Size then (line, column + count)
    else if c = '\n' then positionAfter (line + 1) 0 (count - 1) rest
    else positionAfter line (column + c.utf8Size) (count - c.utf8Size) rest

/-- Line and column of a fault of a text. -/
def position (whole : Text) (fault : Fault) : Nat × Nat :=
  positionAfter 1 0 (Text.byteLength whole - fault.left) whole

/-- The text of a fault of a text. -/
def message (whole : Text) (fault : Fault) : String :=
  let (line, column) := fault.position whole
  fault.cause.message ++ " at line " ++ toString line ++ " column " ++ toString column

end Fault

/-- A reader takes a value from the front of a text. -/
abbrev Reader (α : Type) := Text → Except Fault (α × Text)

end AmdBundle.Json
