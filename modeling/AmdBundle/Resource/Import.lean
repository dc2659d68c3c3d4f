import AmdBundle.Text.Basic
import AmdBundle.Text.Classes

/-!
# Imports in stylesheets

An import is written `@import "path";`, with either quote on either side, blanks wherever, and the
semicolon left out at will. The blanks behind it belong to it.

* `readImport` : the import with which a text begins;
* `splitImports` : the paths of all imports of a text, and the text without them.
-/

set_option autoImplicit false

namespace AmdBundle.Stylesheet

def isQuote (c : Char) : Bool :=
  c == '"' || c == '\''

/-- The text behind a quote of either kind. -/
def readQuote : Text → Option Text
  | [] => none
  | c :: rest => if isQuote c then some rest else none

/-- The text behind a semicolon, if there is one. -/
def dropSemicolon : Text → Text
  | ';' :: rest => rest
  | text => text

/-- The path of the import with which a text begins, and the text behind the import. -/
def readImport (text : Text) : Option (Text × Text) := do
  let text ← Text.dropWord "@import".toList text
  let text ← readQuote (Text.skipBlank text)
  let path := text.takeWhile fun c => !isQuote c
  let text ← readQuote (text.dropWhile fun c => !isQuote c)
  if path.isEmpty then none
  else some (path, Text.skipBlank (dropSemicolon (Text.skipBlank text)))

/-- The paths of the imports of a text and the text without them; `fuel` is more than its length. -/
def splitImportsFrom : Nat → Text → List Text × Text
  | 0, text => ([], text)
  | _ + 1, [] => ([], [])
  | fuel + 1, c :: rest =>
    match readImport (c :: rest) with
    | some (path, rest) =>
      let (paths, kept) := splitImportsFrom fuel rest
      (path :: paths, kept)
    | none =>
      let (paths, kept) := splitImportsFrom fuel rest
      (paths, c :: kept)

/-- The paths of the imports of a text, in order, and the text without the imports. -/
def splitImports (text : Text) : List Text × Text :=
  splitImportsFrom (text.length + 1) text

end AmdBundle.Stylesheet
