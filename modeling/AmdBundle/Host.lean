import AmdBundle.Activity
import AmdBundle.Compiler.Invocation
import AmdBundle.Error.System

/-!
# The system around a build

* `Host` : how the system watches files and starts programs.
-/

set_option autoImplicit false

namespace AmdBundle

structure Host where
  /-- Why a file that is there cannot be watched; none if it can be. -/
  watchFault? : FileTree → Location → Option String
  /-- What a program is going to do, or why it cannot be started. -/
  start : Invocation → FileTree → Except SystemError Activity

end AmdBundle
