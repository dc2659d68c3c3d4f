import AmdBundle.Text.Utf8

/-!
# Lines out of printed bytes

Lines end with a line feed, which goes with one carriage return before it. Reading stops for good at
the first line that is not text.

* `LineReader` : the bytes of a line that has not ended yet; `push`, `close` : the lines that are
  complete after more bytes, or at the end.
-/

set_option autoImplicit false

namespace AmdBundle

structure LineReader where
  /-- The bytes of the line that has not ended. -/
  rest : Bytes
  isOpen : Bool
  deriving DecidableEq, Repr

namespace LineReader

def start : LineReader :=
  ⟨[], true⟩

/-- A line without the carriage return at its end. -/
def dropReturn (line : Bytes) : Bytes :=
  if line.getLast? = some 13 then line.dropLast else line

/-- The lines that end in the bytes, and what is behind the last one. -/
def cut : Bytes → List Bytes × Bytes
  | [] => ([], [])
  | b :: more =>
    let (lines, rest) := cut more
    if b = 10 then ([] :: lines, rest)
    else
      match lines with
      | [] => ([], b :: rest)
      | line :: others => ((b :: line) :: others, rest)

/-- The lines that are text up to the first one that is not, and whether all are. -/
def texts : List Bytes → List Text × Bool
  | [] => ([], true)
  | line :: others =>
    match Text.decode (dropReturn line) with
    | none => ([], false)
    | some text =>
      let (more, all) := texts others
      (text :: more, all)

/-- The reader after more bytes, and the lines that are complete now. -/
def push (r : LineReader) (bytes : Bytes) : LineReader × List Text :=
  if r.isOpen then
    let (lines, rest) := cut (r.rest ++ bytes)
    let (found, all) := texts lines
    if all then (⟨rest, true⟩, found) else (⟨[], false⟩, found)
  else (r, [])

/-- The reader after the last byte, and the line that had not ended. -/
def close (r : LineReader) : LineReader × List Text :=
  (⟨[], false⟩, if r.isOpen && !r.rest.isEmpty then (Text.decode r.rest).toList else [])

end LineReader

end AmdBundle
