import AmdBundle.Text.Basic
import AmdBundle.Text.Visible

/-!
# Quoted text

Three ways to write a text between double quotes.

* `quote` : a JSON string, which escapes the quote, the backslash and the control characters;
* `scriptQuote` : a JSON string that is also a string literal of every script engine, since it
  escapes the two Unicode line separators as well;
* `shown` : the form in which a message shows a text, with every hidden character escaped.
-/

set_option autoImplicit false

namespace AmdBundle.Text

/-- The small hexadecimal digit of a value below sixteen. -/
def hexDigit (n : Nat) : Char :=
  if n < 10 then Char.ofNat (48 + n) else Char.ofNat (87 + n)

/-- A control character below U+0020 as `\u` and four hexadecimal digits. -/
def controlEscape (c : Char) : Text :=
  ['\\', 'u', '0', '0', hexDigit (c.toNat / 16), hexDigit (c.toNat % 16)]

def jsonEscape (c : Char) : Text :=
  if c = '"' then ['\\', '"']
  else if c = '\\' then ['\\', '\\']
  else if c = '\n' then ['\\', 'n']
  else if c = '\r' then ['\\', 'r']
  else if c = '\t' then ['\\', 't']
  else if c.toNat = 8 then ['\\', 'b']
  else if c.toNat = 12 then ['\\', 'f']
  else if c.toNat < 32 then controlEscape c
  else [c]

def quote (text : Text) : Text :=
  '"' :: (text.flatMap jsonEscape ++ ['"'])

/-- One character inside a script string literal: U+2028 and U+2029 would end the line. -/
def scriptEscape (c : Char) : Text :=
  if c = '\u2028' then "\\u2028".toList
  else if c = '\u2029' then "\\u2029".toList
  else jsonEscape c

/-- A text as a string literal of a script. -/
def scriptQuote (text : Text) : Text :=
  '"' :: (text.flatMap scriptEscape ++ ['"'])

def shownChar (c : Char) : Text :=
  if c = '"' then ['\\', '"']
  else if c = '\\' then ['\\', '\\']
  else if c = '\n' then ['\\', 'n']
  else if c = '\r' then ['\\', 'r']
  else if c = '\t' then ['\\', 't']
  else if c.toNat = 0 then ['\\', '0']
  else if isVisible c then [c]
  else "\\u\x7b".toList ++ Nat.toDigits 16 c.toNat ++ "\x7d".toList

def shown (text : Text) : Text :=
  '"' :: (text.flatMap shownChar ++ ['"'])

end AmdBundle.Text
