import AmdBundle.Path.Basic

/-!
# Inputs of the compiler

* `InputKind` : a single script, or a project described by a file;
* `InputKind.ofPath?` : the kind by the name of the file, in any letter case.
-/

set_option autoImplicit false

namespace AmdBundle

inductive InputKind where
  | project
  | script
  deriving DecidableEq, Repr

namespace InputKind

/-- The kind that a lower-case file name shows. -/
def ofName? (name : Text) : Option InputKind :=
  if Text.endsWith ".ts".toList name || Text.endsWith ".tsx".toList name then some script
  else if Text.occursIn "tsconfig".toList name && Text.endsWith ".json".toList name then
    some project
  else none

/-- The kind of an input, none if the compiler cannot take it. -/
def ofPath? (input : Path) : Option InputKind :=
  (Path.fileName? input).bind fun name => ofName? (Text.asciiLower name)

end InputKind

end AmdBundle
