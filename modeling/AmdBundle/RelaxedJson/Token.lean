import AmdBundle.Json.Lexeme
import AmdBundle.RelaxedJson.Fault
import AmdBundle.Text.Classes

/-!
# Tokens of relaxed JSON text

Relaxed JSON has comments, strings between quotes of either kind, and bare words. A bare word runs to
the next blank or colon and consists of letters, digits and hyphens.

* `Token` : a piece of the text; `Tokens` : all pieces, up to the end or to the first fault;
* `readToken` : the token at the front of a text; `tokens` : the tokens of a whole text.
-/

set_option autoImplicit false

namespace AmdBundle.RelaxedJson

/-- A piece of a relaxed JSON text. -/
inductive Token where
  | openBrace
  | closeBrace
  | openBracket
  | closeBracket
  | comma
  | colon
  | null
  | bool (value : Bool)
  | number (spelling : Text)
  | string (value : Text)
  | word (spelling : Text)
  deriving DecidableEq, Repr

/-- The tokens of a text in order, each with the number of characters from its start to the end. -/
inductive Tokens where
  | done
  | broken (fault : Fault)
  | next (token : Token) (left : Nat) (rest : Tokens)
  deriving Repr

def Tokens.count : Tokens → Nat
  | done => 0
  | broken _ => 0
  | next _ _ rest => rest.count + 1

/-! ## Strings -/

/-- The character of an escape that is one letter, in a string between quotes `q`. -/
def letterEscape (q c : Char) : Except Cause Char :=
  if c = '"' ∧ q ≠ '"' then .error .doubleQuoteEscape
  else if c = '\'' ∧ q = '"' then .error .singleQuoteEscape
  else if c = '\'' then .ok c
  else
    match Json.shortEscape c with
    | some d => .ok d
    | none => .error .badEscape

/-- The character of four hexadecimal digits at the front of a text. -/
def hexEscape : Text → Except Cause (Char × Text)
  | a :: b :: c :: d :: rest =>
    match Json.hexQuad a b c d with
    | none => .error .noHexDigits
    | some n =>
      if Json.isLeading n || Json.isTrailing n then .error (.noCharacter [a, b, c, d])
      else .ok (Char.ofNat n, rest)
  | _ => .error .noHexDigits

/-- The character of an escape whose backslash stands before `c`. -/
def escape (q c : Char) (rest : Text) : Except Cause (Char × Text) :=
  if c = 'u' then hexEscape rest else (letterEscape q c).map fun d => (d, rest)

/-- A string between quotes `q` after its opening quote, of which the text has `opening` characters
left; `fuel` is more than the length of the text. -/
def stringBody (q : Char) (opening : Nat) : Nat → Text → Except Fault (Text × Text)
  | 0, _ => .error ⟨.openString, opening⟩
  | _ + 1, [] => .error ⟨.openString, opening⟩
  | fuel + 1, c :: rest =>
    if c = q then .ok ([], rest)
    else if c = '\\' then
      match rest with
      | [] => .error ⟨.openString, opening⟩
      | d :: after => do
        let (e, rest) ← (escape q d after).mapError (.facing (c :: rest))
        let (more, rest) ← stringBody q opening fuel rest
        .ok (e :: more, rest)
    else do
      let (more, rest) ← stringBody q opening fuel rest
      .ok (c :: more, rest)

/-! ## Numbers -/

/-- The digits at the front of a text, which begins with one, and what follows. -/
def digits (text : Text) (missing : Cause) : Except Fault (Text × Text) :=
  if (text.takeWhile Char.isDigit).isEmpty then .error (.facing text missing)
  else .ok (text.takeWhile Char.isDigit, text.dropWhile Char.isDigit)

/-- The digits before the point: a zero stands alone. -/
def wholePart : Text → Except Fault (Text × Text)
  | '0' :: rest => .ok (['0'], rest)
  | text => digits text .noDigitAfterSign

/-- The point and the digits behind it, if there is a point. -/
def fraction : Text → Except Fault (Text × Text)
  | '.' :: rest => (digits rest .noDigit).map fun found => ('.' :: found.1, found.2)
  | text => .ok ([], text)

def exponentDigits : Text → Except Fault (Text × Text)
  | '+' :: rest => (digits rest .noDigit).map fun found => ('+' :: found.1, found.2)
  | '-' :: rest => (digits rest .noDigit).map fun found => ('-' :: found.1, found.2)
  | text => digits text .noExponent

def exponent : Text → Except Fault (Text × Text)
  | 'e' :: rest => (exponentDigits rest).map fun found => ('e' :: found.1, found.2)
  | 'E' :: rest => (exponentDigits rest).map fun found => ('E' :: found.1, found.2)
  | text => .ok ([], text)

def unsignedNumber (text : Text) : Except Fault (Text × Text) := do
  let (front, rest) ← wholePart text
  let (behind, rest) ← fraction rest
  let (scale, rest) ← exponent rest
  .ok (front ++ behind ++ scale, rest)

def number : Text → Except Fault (Text × Text)
  | '-' :: rest => (unsignedNumber rest).map fun found => ('-' :: found.1, found.2)
  | text => unsignedNumber text

/-! ## Words -/

def isWordPart (c : Char) : Bool :=
  Text.isWordChar c || c == '-'

/-- A character that ends a bare word. -/
def endsWord (c : Char) : Bool :=
  Text.isBlank c || c == ':'

/-- The text behind a literal, which no letter or digit may follow. -/
def literal? (spelling : String) (text : Text) : Option Text :=
  (Text.dropWord spelling.toList text).filter fun rest => !(rest.head?.any Text.isWordChar)

def bareWord (text : Text) : Except Fault (Token × Text) :=
  let spelling := text.takeWhile fun c => !endsWord c
  if !spelling.isEmpty && spelling.all isWordPart then
    .ok (.word spelling, text.dropWhile fun c => !endsWord c)
  else .error (.facing text .unexpectedToken)

def wordToken (text : Text) : Except Fault (Token × Text) :=
  match literal? "true" text, literal? "false" text, literal? "null" text with
  | some rest, _, _ => .ok (.bool true, rest)
  | _, some rest, _ => .ok (.bool false, rest)
  | _, _, some rest => .ok (.null, rest)
  | none, none, none => bareWord text

/-! ## All tokens -/

/-- The token at the front of a text that begins with `c`, which is neither a blank nor the start of
a comment. -/
def readToken (c : Char) (rest : Text) : Except Fault (Token × Text) :=
  if c = '\x7b' then .ok (.openBrace, rest)
  else if c = '\x7d' then .ok (.closeBrace, rest)
  else if c = '[' then .ok (.openBracket, rest)
  else if c = ']' then .ok (.closeBracket, rest)
  else if c = ',' then .ok (.comma, rest)
  else if c = ':' then .ok (.colon, rest)
  else if c = '"' ∨ c = '\'' then
    (stringBody c (c :: rest).length (rest.length + 1) rest).map fun found =>
      (.string found.1, found.2)
  else if c = '-' ∨ c.isDigit then
    (number (c :: rest)).map fun found => (.number found.1, found.2)
  else wordToken (c :: rest)

/-- The text behind the end of a block comment. -/
def blockEnd? : Text → Option Text
  | [] => none
  | c :: rest =>
    match c, rest with
    | '*', '/' :: rest => some rest
    | _, rest => blockEnd? rest

/-- The tokens of a text; `fuel` is more than its length. -/
def tokensFrom : Nat → Text → Tokens
  | 0, _ => .done
  | _ + 1, [] => .done
  | fuel + 1, c :: rest =>
    if Text.isBlank c then tokensFrom fuel rest
    else
      match c, rest with
      | '/', '/' :: rest => tokensFrom fuel (rest.dropWhile fun c => c != '\n')
      | '/', '*' :: rest =>
        match blockEnd? rest with
        | some rest => tokensFrom fuel rest
        | none => .broken (.facing ('/' :: '*' :: rest) .openComment)
      | c, rest =>
        match readToken c rest with
        | .error fault => .broken fault
        | .ok (token, after) => .next token (c :: rest).length (tokensFrom fuel after)

def tokens (text : Text) : Tokens :=
  tokensFrom (text.length + 1) text

end AmdBundle.RelaxedJson
