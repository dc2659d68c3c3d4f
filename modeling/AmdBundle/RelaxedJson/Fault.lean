import AmdBundle.Text.Basic

/-!
# Faults in relaxed JSON text

A fault is a cause and the number of characters from the place that it names to the end of the text.
From that number and the whole text follow the line and the column, both counted from one and a
column counting characters.

* `Cause.message` : the text of a cause; `Fault.message` : the text of a fault.
-/

set_option autoImplicit false

namespace AmdBundle.RelaxedJson

/-- Why a relaxed JSON text cannot be read. -/
inductive Cause where
  | unexpectedToken
  | unexpectedWord
  | unexpectedComma
  | unexpectedColon
  | unexpectedCloseBrace
  | unexpectedCloseBracket
  | noPropertyName
  | noColon
  | noPropertyValue
  | noDigit
  | noDigitAfterSign
  | noExponent
  | secondValue
  | openComment
  | openObject
  | openArray
  | openString
  | badEscape
  | doubleQuoteEscape
  | singleQuoteEscape
  | noHexDigits
  | noCharacter (digits : Text)
  deriving DecidableEq, Repr

def Cause.message : Cause → String
  | unexpectedToken => "Unexpected token"
  | unexpectedWord => "Unexpected word"
  | unexpectedComma => "Unexpected comma"
  | unexpectedColon => "Unexpected colon"
  | unexpectedCloseBrace => "Unexpected close brace"
  | unexpectedCloseBracket => "Unexpected close bracket"
  | noPropertyName => "Unexpected token in object"
  | noColon => "Expected colon after the string or word in object property"
  | noPropertyValue => "Expected value after colon in object property"
  | noDigit => "Expected digit"
  | noDigitAfterSign => "Expected digit following negative sign"
  | noExponent => "Expected plus, minus, or digit in number literal"
  | secondValue => "Text cannot contain more than one JSON value"
  | openComment => "Unterminated comment block"
  | openObject => "Unterminated object"
  | openArray => "Unterminated array"
  | openString => "Unterminated string literal"
  | badEscape => "Invalid escape"
  | doubleQuoteEscape => "Invalid escape in single quote string"
  | singleQuoteEscape => "Invalid escape in double quote string"
  | noHexDigits => "Expected four hex digits"
  | noCharacter digits =>
    "Invalid unicode escape sequence. '" ++ String.ofList digits ++
      "' is not a valid UTF8 character"

/-- A cause and the number of characters from the place that it names to the end. -/
structure Fault where
  cause : Cause
  left : Nat
  deriving DecidableEq, Repr

namespace Fault

/-- The fault that names the front of `rest`. -/
def facing (rest : Text) (cause : Cause) : Fault :=
  ⟨cause, rest.length⟩

/-- The line and column after some characters, which began in line `line` and column `column`. -/
def positionAfter (line column : Nat) : Text → Nat × Nat
  | [] => (line, column)
  | c :: rest =>
    if c = '\n' then positionAfter (line + 1) 1 rest else positionAfter line (column + 1) rest

/-- Line and column of a fault of a text. -/
def position (whole : Text) (fault : Fault) : Nat × Nat :=
  positionAfter 1 1 (whole.take (whole.length - fault.left))

/-- The text of a fault of a text. -/
def message (whole : Text) (fault : Fault) : String :=
  let (line, column) := fault.position whole
  fault.cause.message ++ " on line " ++ toString line ++ " column " ++ toString column

end Fault

end AmdBundle.RelaxedJson
