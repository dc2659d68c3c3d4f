import AmdBundle.Compiler.Input
import AmdBundle.Compiler.ProjectFile
import AmdBundle.Error.Command
import AmdBundle.FileTree.Access
import AmdBundle.Target

/-!
# What an input emits if nobody says more

A script emits a file beside itself, for the oldest target. A project emits what its options say; the
name of the file comes from the last source if only a folder is set, or nothing at all.

* `Emission.ofScript`, `Emission.ofProject` : what follows from a script or a project;
* `Emission.ofInput` : what follows from the file of an input.
-/

set_option autoImplicit false

namespace AmdBundle

structure Emission where
  target : Target
  outFile : Path
  deriving DecidableEq, Repr

namespace Emission

/-- The name of an output of which no source is known. -/
def bundleName : Text :=
  "bundle".toList

/-- The name of the output of a source. -/
def outputName (source : Path) : Text :=
  (Path.stem? source).getD bundleName ++ ".js".toList

/-- The name of the output of the last source. -/
def outputOfLast : Option Path → Text
  | some source => outputName source
  | none => bundleName ++ ".js".toList

def ofScript (script : Path) : Emission :=
  ⟨.es3, Path.join (Path.parent script) (outputName script)⟩

/-- The file that a project in a folder emits. -/
def projectFile (folder : Path) (p : ProjectFile) : Path :=
  match p.options.outFile, p.options.outDir with
  | some outFile, _ => Path.join folder outFile
  | none, some outDir => Path.join (Path.join folder outDir) (outputOfLast p.lastSource?)
  | none, none => Path.join folder (outputOfLast p.lastSource?)

/-- What a project in a folder emits. -/
def ofProject (folder : Path) (p : ProjectFile) : Emission :=
  ⟨(p.options.target.map Target.ofName).getD .es3, projectFile folder p⟩

/-- The error of a file that describes no project. -/
def misfit (file : Path) (reason : String) : CommandError :=
  ((CommandError.other reason).withContext (String.ofList file ++ " is not a valid tsconfig")).withHint
    "A tsconfig must be a JSON object (comments and trailing commas are allowed)"

/-- What the project in a file emits. -/
def ofProjectFile (fs : FileTree) (file : Path) : Except CommandError Emission := do
  let text ← (fs.readText file).mapError fun e => (CommandError.system (.ofFile e)).withPath file
  let project ← (ProjectFile.parse text).mapError (misfit file)
  .ok (ofProject (Path.parent file) project)

def ofInput (fs : FileTree) : InputKind → Path → Except CommandError Emission
  | .script, input => .ok (ofScript input)
  | .project, input => ofProjectFile fs input

end Emission

end AmdBundle
