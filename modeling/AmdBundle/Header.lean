import AmdBundle.Text.Classes
import AmdBundle.Text.Lines

/-!
# Module headers

A bundle is a text in which every line that begins with `define(` opens a module:

    define("lib/a", ["require", "exports", "text!./a.txt"], function (require, exports, text) {

Module bodies are indented, so only a line that begins with the word, spaces or tabs, and the
bracket is a header. A header may go on over several lines. One that does not have this shape is
malformed; it is never skipped.

* `Literal` : a string literal and where it stands; `readLiteral` : read one;
* `Header.read` : read one header; `Header.scan` : all headers of a text;
* `Malformed` : the line of a header, what was expected and what was found.
-/

set_option autoImplicit false

namespace AmdBundle

structure Literal where
  /-- How many characters of the text stand before its opening quote. -/
  start : Nat
  quote : Char
  /-- What stands between the quotes, escapes as they are written. -/
  content : Text
  deriving DecidableEq, Repr

/-- How many characters of the text stand before the end of the literal. -/
def Literal.stop (l : Literal) : Nat :=
  l.start + l.content.length + 2

def Literal.spelling (l : Literal) : Text :=
  l.quote :: (l.content ++ [l.quote])

structure Header where
  /-- The line on which it begins, counted from 1. -/
  line : Nat
  name : Literal
  dependencies : List Literal
  deriving DecidableEq, Repr

inductive Expected where
  | word (spelling : String)
  | mark (c : Char)
  | moduleName
  | dependency
  | listEnd
  deriving DecidableEq, Repr

def Expected.message : Expected → String
  | word spelling => "expected '" ++ spelling ++ "'"
  | mark c => "expected '" ++ String.singleton c ++ "'"
  | moduleName => "expected module name string literal"
  | dependency => "expected dependency string literal"
  | listEnd => "expected ',' or ']' in dependency list"

/-- A header that does not have the shape of one. -/
structure Malformed where
  line : Nat
  expected : Expected
  rest : Text
  deriving DecidableEq, Repr

/-- How much of the text a message shows. -/
def Malformed.shownLength : Nat := 24

def Malformed.reason (m : Malformed) : String :=
  m.expected.message ++ " (found '" ++
    String.ofList (Text.firstLine (m.rest.take shownLength)) ++ "')"

namespace Header

/-! ## Parts of a header -/

/-- May the character go on a name? -/
def isNameChar (c : Char) : Bool :=
  Text.isLetter c || Text.isNumeral c || c == '_' || c == '$'

/-- The text behind a word, which must not be the beginning of a longer name. -/
def readWord (word text : Text) : Option Text :=
  match Text.dropWord word text with
  | none => none
  | some [] => some []
  | some (c :: rest) => if isNameChar c then none else some (c :: rest)

def readMark (c : Char) : Text → Option Text
  | [] => none
  | d :: rest => if d = c then some rest else none

/-- What stands before the closing quote, and the text behind it. A backslash takes the next
character with it, whatever it is; a line feed of its own ends no literal. -/
def literalBody (quote : Char) : Text → Option (Text × Text)
  | [] => none
  | '\\' :: [] => none
  | '\\' :: c :: rest =>
    (literalBody quote rest).map fun found => ('\\' :: c :: found.1, found.2)
  | c :: rest =>
    if c = '\n' then none
    else if c = quote then some ([], rest)
    else (literalBody quote rest).map fun found => (c :: found.1, found.2)

/-- A string literal of a text of `total` characters, and the text behind it. -/
def readLiteral (total : Nat) : Text → Option (Literal × Text)
  | [] => none
  | c :: rest =>
    if c = '"' ∨ c = '\'' then
      (literalBody c rest).map fun found =>
        (⟨total - (rest.length + 1), c, found.1⟩, found.2)
    else none

/-! ## A header -/

/-- The value of a part, or the fault that something else stands there. -/
def need {α : Type} (line : Nat) (expected : Expected) (rest : Text) :
    Option α → Except Malformed α
  | some a => .ok a
  | none => .error ⟨line, expected, rest⟩

/-- The dependencies from one of them on, and the text behind the closing bracket; `fuel` is more
than the length of the text. -/
def readDependencies (total line : Nat) : Nat → Text → Except Malformed (List Literal × Text)
  | 0, text => .error ⟨line, .dependency, text⟩
  | fuel + 1, text => do
    let text := Text.skipBlank text
    let (first, rest) ← need line .dependency text (readLiteral total text)
    let rest := Text.skipBlank rest
    match readMark ',' rest with
    | some rest =>
      let (more, rest) ← readDependencies total line fuel rest
      .ok (first :: more, rest)
    | none =>
      let rest ← need line .listEnd rest (readMark ']' rest)
      .ok ([first], rest)

/-- The list of dependencies behind its opening bracket. -/
def readList (total line : Nat) (text : Text) : Except Malformed (List Literal × Text) :=
  let text := Text.skipBlank text
  match readMark ']' text with
  | some rest => .ok ([], rest)
  | none => readDependencies total line (text.length + 1) text

/-- The header with which the rest of a text of `total` characters begins. -/
def read (total line : Nat) (text : Text) : Except Malformed Header := do
  let text ← need line (.word "define") text (readWord "define".toList text)
  let text := Text.skipBlank text
  let text ← need line (.mark '(') text (readMark '(' text)
  let text := Text.skipBlank text
  let (name, text) ← need line .moduleName text (readLiteral total text)
  let text := Text.skipBlank text
  let text ← need line (.mark ',') text (readMark ',' text)
  let text := Text.skipBlank text
  let text ← need line (.mark '[') text (readMark '[' text)
  let (dependencies, text) ← readList total line text
  let text := Text.skipBlank text
  let text ← need line (.mark ',') text (readMark ',' text)
  let text := Text.skipBlank text
  let _ ← need line (.word "function") text (readWord "function".toList text)
  .ok ⟨line, name, dependencies⟩

/-! ## All headers -/

def isGap (c : Char) : Bool :=
  c == ' ' || c == '\t'

/-- Does the line with which the text begins open a module? -/
def opens (text : Text) : Bool :=
  match Text.dropWord "define".toList text with
  | none => false
  | some rest => (rest.dropWhile isGap).head? == some '('

/-- The headers on some lines of a text of `total` characters. -/
def scanLines (total : Nat) : List (Nat × Text) → Except Malformed (List Header)
  | [] => .ok []
  | (line, text) :: more =>
    if opens text then do
      let header ← read total line text
      let headers ← scanLines total more
      .ok (header :: headers)
    else scanLines total more

/-- All headers of a text, in order. -/
def scan (code : Text) : Except Malformed (List Header) :=
  scanLines code.length (Text.lineStarts code)

end Header

end AmdBundle
