import AmdBundle.Header

/-!
# Why a text cannot be bundled

* `BundleError` : the causes; `BundleError.message` : their text.
-/

set_option autoImplicit false

namespace AmdBundle

inductive BundleError where
  | malformed (line : Nat) (reason : String)
  /-- A resource asks for a form that does not exist. -/
  | unknownDirective (spelling : Text)
  | template (reason : String)
  | json (reason : String)
  deriving DecidableEq, Repr

namespace BundleError

def ofMalformed (m : Malformed) : BundleError :=
  malformed m.line m.reason

def message : BundleError → String
  | malformed line reason => "malformed define on line " ++ toString line ++ ": " ++ reason
  | unknownDirective spelling => "unknown resource directive '" ++ String.ofList spelling ++ "'"
  | template reason => "Loader template error: " ++ reason
  | json reason => "Serialization error: " ++ reason

end BundleError

end AmdBundle
