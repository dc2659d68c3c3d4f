import AmdBundle.Compilation.Basic

/-!
# A record of a compile

* `Record` : the contents and lines that were handed over; `Record.handler` : keeps them.
-/

set_option autoImplicit false

namespace AmdBundle

structure Record where
  contents : List Text
  lines : List Text
  deriving DecidableEq, Repr

namespace Record

def empty : Record :=
  ⟨[], []⟩

/-- Keeps all that is handed over, and changes no file. -/
def handler : Handler Record where
  onLine := fun r line => { r with lines := r.lines ++ [line] }
  onContent := fun r content => { r with contents := r.contents ++ [content] }
  work := fun _ _ => .done

end Record

end AmdBundle
