import AmdBundle.Text.Basic

/-!
# Paths

A path is a text whose parts are separated by slashes. A path that starts with a slash is absolute.
Empty parts and parts `.` say nothing, except that a relative path may begin with `.`.

* `isAbsolute`, `join` : an absolute second path replaces the first;
* `parts` : the parts that say something; `names` : everything between slashes, for walking;
* `fileName?`, `stem?`, `parent?` : the last part, its name without extension, and the path before it;
* `way` : the parts that lead from one folder to another place.
-/

set_option autoImplicit false

namespace AmdBundle

abbrev Path := Text

namespace Path

/-- The part that stays in a folder. -/
def here : Text := ['.']

def up : Text := ['.', '.']

/-- Does the path start at the root? -/
def isAbsolute (p : Path) : Bool :=
  p.head? == some '/'

/-- The second path, seen from the folder that the first one names. -/
def join (p q : Path) : Path :=
  if isAbsolute q then q
  else if p.isEmpty || p.getLast? == some '/' then p ++ q
  else p ++ '/' :: q

def isIdle (part : Text) : Bool :=
  part.isEmpty || part == here

/-- The beginning of a path that is not a plain part, a slash or a dot, and the rest. -/
def splitHead (p : Path) : Text × Text :=
  match p with
  | '/' :: rest => (['/'], rest)
  | ['.'] => (here, [])
  | '.' :: '/' :: rest => (here, '/' :: rest)
  | _ => ([], p)

/-- The parts without the idle ones at the end. -/
def dropIdleEnd (parts : List Text) : List Text :=
  (parts.reverse.dropWhile isIdle).reverse

/-- The pieces after the head of the path, without idle ones at the end. -/
def bodyPieces (p : Path) : List Text :=
  dropIdleEnd ((splitHead p).2.splitOn '/')

/-- The last part, if it is a name. -/
def fileName? (p : Path) : Option Text :=
  match (bodyPieces p).getLast? with
  | some name => if name = up then none else some name
  | none => none

/-- The path before the last part; none for the root and for the empty path. -/
def parent? (p : Path) : Option Path :=
  let (start, _) := splitHead p
  match bodyPieces p with
  | [] => if start = here then some [] else none
  | pieces => some (start ++ ['/'].intercalate (dropIdleEnd pieces.dropLast))

/-- The path before the last part, empty if there is none. -/
def parent (p : Path) : Path :=
  (parent? p).getD []

/-- The file name without its extension, the part from the last dot on. A dot in front of the name
begins no extension. -/
def stem? (p : Path) : Option Text :=
  (fileName? p).map fun name =>
    match Text.splitLast '.' name with
    | some ([], _) => name
    | some (front, _) => front
    | none => name

/-- All pieces between slashes, with the slash of an absolute path taken off. -/
def names (p : Path) : List Text :=
  match p with
  | '/' :: rest => List.splitOn '/' rest
  | _ => List.splitOn '/' p

/-- The parts that say something, in order. -/
def parts (p : Path) : List Text :=
  (names p).filter fun part => !isIdle part

/-- The parts that lead from one folder to another place, both given by their parts: up as far as
they differ, then down. -/
def way : List Text → List Text → List Text
  | base :: bases, part :: more =>
    if base = part then way bases more
    else List.replicate (bases.length + 1) up ++ part :: more
  | bases, more => List.replicate bases.length up ++ more

end Path

end AmdBundle
