import AmdBundle.FileTree.Basic

/-!
# Errors of the system

* `SystemError` : what the system answers when it does not do what it is asked to.
-/

set_option autoImplicit false

namespace AmdBundle

/-- The kinds of errors that are told apart. -/
inductive SystemErrorKind where
  | notFound
  | permissionDenied
  | invalidData
  | other
  deriving DecidableEq, Repr

def SystemErrorKind.message : SystemErrorKind → String
  | notFound => "entity not found"
  | permissionDenied => "permission denied"
  | invalidData => "invalid data"
  | other => "other error"

structure SystemError where
  kind : SystemErrorKind
  message : String
  deriving DecidableEq, Repr

namespace SystemError

/-- An error that says no more than its kind. -/
def ofKind (kind : SystemErrorKind) : SystemError :=
  ⟨kind, kind.message⟩

/-- The kind of an error of a file. -/
def kindOf : FileError → SystemErrorKind
  | .notFound => .notFound
  | .permissionDenied => .permissionDenied
  | .notText => .invalidData
  | _ => .other

def ofFile (e : FileError) : SystemError :=
  ⟨kindOf e, e.message⟩

end SystemError

end AmdBundle
