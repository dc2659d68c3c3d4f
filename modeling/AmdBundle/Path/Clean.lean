import AmdBundle.Path.Basic

/-!
# Clean paths

`clean` shortens a path without looking at any file: idle parts go, and `..` takes the name before
it away. At the root `..` says nothing; at the beginning of a relative path it stays. The clean form
of a path that ends where it began is `.`.

The names kept so far are a stack with its top in front.
-/

set_option autoImplicit false

namespace AmdBundle.Path

/-- The names kept after one more part. -/
def pushPart (absolute : Bool) (stack : List Text) (part : Text) : List Text :=
  if isIdle part then stack
  else if part = up then
    match stack with
    | [] => if absolute then [] else [up]
    | top :: rest => if top = up then up :: top :: rest else rest
  else part :: stack

/-- The parts of the clean form, in order. -/
def cleanParts (absolute : Bool) (parts : List Text) : List Text :=
  (parts.foldl (pushPart absolute) []).reverse

/-- The shortest spelling of a path that needs no look at the files. -/
def clean (p : Path) : Path :=
  if isAbsolute p then '/' :: ['/'].intercalate (cleanParts true (names p))
  else
    match cleanParts false (names p) with
    | [] => here
    | kept => ['/'].intercalate kept

end AmdBundle.Path
