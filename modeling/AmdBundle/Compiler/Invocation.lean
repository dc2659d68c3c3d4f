import AmdBundle.Compiler.Input
import AmdBundle.Target

/-!
# Running the compiler

* `CompilerOptions` : what one run of the compiler is asked to do;
* `CompilerOptions.arguments` : how it is asked;
* `Invocation` : a program with its arguments.
-/

set_option autoImplicit false

namespace AmdBundle

/-- What one run of the compiler is asked to do. -/
structure CompilerOptions where
  kind : InputKind
  target : Target
  inFile : Path
  outFile : Path
  /-- Does the compiler go on and compile every change? -/
  watch : Bool
  deriving DecidableEq, Repr

/-- The words that ask the compiler to do that. -/
def CompilerOptions.arguments (o : CompilerOptions) : List Text :=
  (if o.kind = .project then ["--project".toList] else []) ++
    [o.inFile, "--outFile".toList, o.outFile, "--target".toList, o.target.name.toList,
      "--module".toList, "amd".toList] ++
    if o.watch then ["--watch".toList] else []

structure Invocation where
  program : Text
  arguments : List Text
  deriving DecidableEq, Repr

namespace Invocation

/-- The run of a compiler that is asked to do that. -/
def ofOptions (program : Text) (o : CompilerOptions) : Invocation :=
  ⟨program, o.arguments⟩

/-- The words of a run with blanks between them. -/
def display (i : Invocation) : Text :=
  [' '].intercalate (i.program :: i.arguments)

end Invocation

end AmdBundle
