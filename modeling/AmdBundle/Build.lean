import AmdBundle.Compilation.Clock
import AmdBundle.Plan
import AmdBundle.Settings.Check
import AmdBundle.Settings.Load
import AmdBundle.Writer

/-!
# Builds

A build loads and checks the settings, makes a plan and runs the compiler. Every content of the output
is bundled while the compiler runs; what the compiler prints is printed.

* `Build.prepare` : the plan of a build; `Build.begin` : the compile of a plan;
* `Build.handler` : what is done with contents and lines; `Build.conclude` : how a build ends;
* `build` : a whole build.
-/

set_option autoImplicit false

namespace AmdBundle

/-- What a build keeps while the compiler runs. -/
structure BuildState where
  writer : Writer
  printed : List Text
  deriving DecidableEq, Repr

structure BuildResult where
  /-- How the build went; none if its compile has no result. -/
  outcome : Option (Except CommandError Unit)
  printed : List Text
  files : FileTree

namespace Build

/-- The plan of a build, if there is nothing against it. -/
def prepare (fs : FileTree) (environment : Settings.Variables) (arguments : BuildArguments) :
    Except CommandError Plan := do
  let settings ← (Settings.load fs environment arguments).mapError CommandError.settings
  settings.check.mapError CommandError.settings
  Plan.resolve fs settings

def handler : Handler BuildState where
  onLine := fun b line => { b with printed := b.printed ++ [line] }
  onContent := fun b content => { b with writer := b.writer.take content }
  work := fun b fs => (b.writer.work fs).map fun writer => { b with writer }

/-- What a build keeps before the compiler runs. -/
def initial (plan : Plan) : BuildState :=
  ⟨.start plan.compiler.outFile plan.bundle, []⟩

/-- The compile of a plan at its start. -/
def begin (host : Host) (fs : FileTree) (plan : Plan) : Compilation BuildState :=
  .start host fs plan.invocation plan.compiler.outFile (initial plan)

def timing (plan : Plan) : Timing :=
  ⟨plan.tickMs, plan.timeoutMs, plan.debounceMs⟩

/-- How a build ends when its compile is over: it fails if the compile failed, or if the last content
was not bundled. -/
def conclude (c : Compilation BuildState) : Option (Except CommandError Unit) :=
  c.driver.result?.map fun result =>
    match result, c.kept.writer.lastError with
    | .error e, _ => .error (.compile e)
    | .ok _, some e => .error e
    | .ok _, none => .ok ()

/-- What is left behind when the compile is over. -/
def resultOf (c : Compilation BuildState) : BuildResult :=
  ⟨conclude c, c.kept.printed, c.files⟩

end Build

def build (host : Host) (fs : FileTree) (environment : Settings.Variables)
    (arguments : BuildArguments) : BuildResult :=
  match Build.prepare fs environment arguments with
  | .error e => ⟨some (.error e), [], fs⟩
  | .ok plan =>
    Build.resultOf (Clock.run (Build.timing plan) Build.handler (Build.begin host fs plan))

end AmdBundle
