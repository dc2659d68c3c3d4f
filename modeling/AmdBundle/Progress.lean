import AmdBundle.FileTree.Basic

/-!
# Going on with a task

* `Progress` : what comes of the next thing that somebody does.
-/

set_option autoImplicit false

namespace AmdBundle

/-- What comes of the next thing that is done. -/
inductive Progress (η : Type) where
  /-- There may be more to do. -/
  | more (kept : η) (files : FileTree)
  /-- There is nothing to do. -/
  | done
  /-- It breaks off, and so does whoever waits for it. -/
  | panic
  deriving DecidableEq, Repr

namespace Progress

variable {η θ : Type}

def map (f : η → θ) : Progress η → Progress θ
  | more kept files => more (f kept) files
  | done => done
  | panic => panic

def isPanic : Progress η → Bool
  | panic => true
  | _ => false

end Progress

end AmdBundle
