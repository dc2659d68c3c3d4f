import AmdBundle.Compiler.Emission
import AmdBundle.Compiler.Invocation
import AmdBundle.Settings.Basic

/-!
# Plan of a build

The settings leave open what follows from the input: target, output and project folder. A plan has
filled them in.

* `Plan.resolve` : the plan of the settings, if the input can be compiled.
-/

set_option autoImplicit false

namespace AmdBundle

/-- All that a build needs to know. -/
structure Plan where
  compiler : CompilerOptions
  invocation : Invocation
  bundle : BundleOptions
  /-- How many milliseconds pass between two looks at output that is late. -/
  tickMs : Nat
  timeoutMs : Nat
  /-- How many milliseconds the output has to be quiet before it is read. -/
  debounceMs : Nat
  deriving DecidableEq, Repr

namespace Plan

/-- The error of settings without an input. -/
def noInput : CommandError :=
  .invalidArgument "no input file given"

/-- The error of an input that the compiler cannot take. -/
def notCompilable (input : Path) : CommandError :=
  .invalidArgument
    (hinted ("cannot bundle '" ++ String.ofList input ++ "'")
      "Pass a .ts or .tsx script, or a tsconfig.json")

def folderOf (input : Path) : Path :=
  if (Path.parent input).isEmpty then Path.here else Path.parent input

/-- The plan for an input of a known kind that emits something if the settings do not say more. -/
def ofEmission (s : Settings) (kind : InputKind) (input : Path) (e : Emission) : Plan :=
  let target := s.target.getD e.target
  let options : CompilerOptions := ⟨kind, target, input, s.outFile.getD e.outFile, s.watch⟩
  { compiler := options
    invocation := .ofOptions s.compiler options
    bundle := s.bundleOptions target (s.projectRoot.getD (folderOf input))
    tickMs := s.settleTickMs
    timeoutMs := s.settleTimeoutMs
    debounceMs := s.debounceMs }

/-- The plan of a build with these settings. -/
def resolve (fs : FileTree) (s : Settings) : Except CommandError Plan :=
  match s.input with
  | none => .error noInput
  | some input =>
    match InputKind.ofPath? input with
    | none => .error (notCompilable input)
    | some kind =>
      if fs.isFile input then (Emission.ofInput fs kind input).map (ofEmission s kind input)
      else .error (.fileNotFound input)

end Plan

end AmdBundle
