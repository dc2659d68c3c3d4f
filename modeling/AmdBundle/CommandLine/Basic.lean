import AmdBundle.Options

/-!
# Command lines

* `CommandLine` : what a command line says; `BuildArguments` : what it says about the build;
* `UsageError` : why a command line says nothing.
-/

set_option autoImplicit false

namespace AmdBundle

/-- What a command line says about the build. -/
structure BuildArguments where
  input : Option Path
  outFile : Option Path
  /-- What the compiler and the loader may use. -/
  target : Option Target
  /-- Where the exports of the entry module go. -/
  exportAs : Option Text
  /-- The names of the host that are modules. -/
  importAs : List ImportAs
  /-- The names of the host that are default exports. -/
  importAsDefault : List ImportAs
  entryPoint : Option Text
  /-- Does the compiler go on and compile every change? -/
  watch : Bool
  /-- The folder from which the files of resources are seen. -/
  projectRoot : Option Path
  config : Option Path
  compiler : Option Text
  deriving DecidableEq, Repr

/-- The arguments of a build about which nothing is said. -/
def BuildArguments.none : BuildArguments :=
  ⟨.none, .none, .none, .none, [], [], .none, false, .none, .none, .none⟩

structure CommandLine where
  verbose : Bool
  quiet : Bool
  noColor : Bool
  build : BuildArguments
  deriving DecidableEq, Repr

inductive UsageError where
  | help
  | version
  | empty
  | noCommand
  /-- It names a command that does not exist. -/
  | unknownCommand
  /-- It has an argument that does not exist. -/
  | unknownArgument
  /-- It has an argument twice, or two that exclude each other. -/
  | conflict
  /-- An argument has no value, or an empty one. -/
  | noValue
  | tooManyValues
  | refused (reason : String)
  deriving DecidableEq, Repr

end AmdBundle
