import AmdBundle.Text.Basic

/-!
# Lines

* `lineStarts` : every position of a text where a line begins, with its number;
* `lines` : the lines without their line ends;
* `firstLine` : the first of them;
* `indent` : every line moved to the right.
-/

set_option autoImplicit false

namespace AmdBundle.Text

/-- The texts that begin right after each line feed, numbered on from line `n`. -/
def laterLines (n : Nat) : Text → List (Nat × Text)
  | [] => []
  | c :: rest => if c = '\n' then (n + 1, rest) :: laterLines (n + 1) rest else laterLines n rest

/-- Every line number, counted from 1, with the text from the beginning of that line on. -/
def lineStarts (text : Text) : List (Nat × Text) :=
  (1, text) :: laterLines 1 text

/-- A line that a line feed ended, without one carriage return at its end. -/
def dropReturn (line : Text) : Text :=
  (dropEnding ['\r'] line).getD line

/-- The lines of a list of pieces between line feeds: the last piece is a line only if it is not
empty, and it keeps a carriage return at its end. -/
def linesOfPieces : List Text → List Text
  | [] => []
  | [piece] => if piece.isEmpty then [] else [piece]
  | piece :: more => dropReturn piece :: linesOfPieces more

/-- The lines of a text, without line feeds and without a carriage return before a line feed. -/
def lines (text : Text) : List Text :=
  linesOfPieces (text.splitOn '\n')

/-- The first line, empty if there is none. -/
def firstLine (text : Text) : Text :=
  (lines text).headD []

/-- The text with `margin` put in front of every line. -/
def indent (margin text : Text) : Text :=
  ['\n'].intercalate ((text.splitOn '\n').map (margin ++ ·))

end AmdBundle.Text
