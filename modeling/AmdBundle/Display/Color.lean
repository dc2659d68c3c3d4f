import AmdBundle.Text.Basic

/-!
# Colours

* `useColor` : are messages written in colours?
-/

set_option autoImplicit false

namespace AmdBundle.Display

/-- Is a variable of that name set, to whatever value? -/
def isSet (name : String) (environment : List (Text × Text)) : Bool :=
  environment.any fun v => v.1 == name.toList

/-- Colours are used on a terminal. One variable forbids them, another one demands them; the first
one wins. -/
def useColor (environment : List (Text × Text)) (isTerminal : Bool) : Bool :=
  if isSet "NO_COLOR" environment then false
  else isSet "FORCE_COLOR" environment || isTerminal

end AmdBundle.Display
