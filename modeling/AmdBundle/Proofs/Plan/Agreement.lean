import AmdBundle.Proofs.Build.Frame
import AmdBundle.Proofs.FileTree.Canonical
import AmdBundle.Proofs.Plan.Resolve
import Mathlib.Logic.Function.Defs

/-!
# The parts of a plan agree

A plan says the same to the compiler, the bundle, the writer and the watcher. The target and the
output are in several of its parts, and each is one and the same wherever it is.

* `TargetOf` : the target that settings and projects ask for;
* `SharesOutput`, `sharesOutput_of_run` : what is watched and written along a run;
* `Agrees`, `agrees_of_resolve` : all that a plan says more than once.
-/

set_option autoImplicit false

namespace AmdBundle
open Compilation Build

variable {fs : FileTree} {s : Settings} {plan : Plan}

/-! ## Targets -/

/-- The target that the settings ask for, or else the project; the oldest one if neither does. -/
inductive TargetOf (fs : FileTree) (s : Settings) : Target → Prop where
  | bySettings {target : Target} (htarget : s.target = some target) : TargetOf fs s target
  | byProject {target : Target} {input : Path} {project : ProjectFile} {spelling : Text}
      (hnone : s.target = none) (hinput : s.input = some input)
      (hkind : InputKind.ofPath? input = some .project) (hproject : DescribesProject fs input project)
      (hspelling : project.options.target = some spelling) (hstands : Target.StandsFor spelling target) :
      TargetOf fs s target
  | unnamed {input : Path} {project : ProjectFile} (hnone : s.target = none)
      (hinput : s.input = some input) (hkind : InputKind.ofPath? input = some .project)
      (hproject : DescribesProject fs input project) (hspelling : project.options.target = none) :
      TargetOf fs s .es3
  | script {input : Path} (hnone : s.target = none) (hinput : s.input = some input)
      (hkind : InputKind.ofPath? input = some .script) : TargetOf fs s .es3

theorem targetOf_of_resolve (h : Plan.resolve fs s = .ok plan) : TargetOf fs s plan.compiler.target := by
  obtain ⟨input, kind, e, hinput, hkind, -, hemits, rfl⟩ := Plan.exists_of_resolve h
  show TargetOf fs s (s.target.getD e.target)
  cases htarget : s.target with
  | some target => exact .bySettings htarget
  | none =>
    rw [Option.getD_none]
    cases hemits with
    | script => exact .script htarget hinput hkind
    | @project project hproject =>
      cases hspelling : project.options.target with
      | none =>
        have holdest : (Emission.ofProject (Path.parent input) project).target = .es3 := by
          rw [Emission.ofProject, hspelling]
          rfl
        rw [holdest]
        exact .unnamed htarget hinput hkind hproject hspelling
      | some spelling =>
        have hnamed : (Emission.ofProject (Path.parent input) project).target =
            Target.ofName spelling := by
          rw [Emission.ofProject, hspelling]
          rfl
        rw [hnamed]
        exact .byProject htarget hinput hkind hproject hspelling (Target.ofName_eq_iff.mp rfl)

/-! ## Outputs -/

/-- No input is spelled like the flag before the output. -/
theorem ne_outFile_of_ofPath? {input : Path} {kind : InputKind}
    (h : InputKind.ofPath? input = some kind) : input ≠ "--outFile".toList := by
  rintro rfl
  exact absurd h (by cases kind <;> decide)

theorem wordBehind_outFile_of_resolve (h : Plan.resolve fs s = .ok plan) :
    CompilerOptions.wordBehind "--outFile".toList plan.invocation.arguments =
      some plan.compiler.outFile := by
  obtain ⟨input, kind, e, -, hkind, -, -, rfl⟩ := Plan.exists_of_resolve h
  exact CompilerOptions.wordBehind_outFile _ (ne_outFile_of_ofPath? hkind)

/-- What is watched and written along a run is the output of the plan. -/
structure SharesOutput (fs : FileTree) (plan : Plan) (steps : List (Step BuildState))
    (d : Compilation BuildState) : Prop where
  writer : d.kept.writer.outFile = plan.compiler.outFile
  written : WritesAlong plan.bundle plan.compiler.outFile steps
  isWatched : d.watched = none ↔ d.driver.result?.isSome = true
  watched : ∀ loc, d.watched = some loc → (fs.provision plan.compiler.outFile).2 = .ok loc
  spelled : fs.HasNoLinks → fs.IsRooted → ∀ loc, d.watched = some loc →
    loc = fs.spelled plan.compiler.outFile
  /-- As long as the folder of the output is where it was, what the writer writes stands at the place
  that is watched. -/
  same : ∀ loc text written, d.watched = some loc → d.files.current = fs.current →
    d.files.IsReal d.files.current →
    d.files.locate (fs.wayTo plan.compiler.outFile) = .ok loc.dropLast →
    d.files.writeFile d.kept.writer.outFile (Text.encode text) = .ok written →
    written.textOf (FileTree.pathOf loc) = .ok text

theorem sharesOutput_of_run {host : Host} {steps : List (Step BuildState)} {d : Compilation BuildState}
    (hrun : Run handler (Build.begin host fs plan) steps d) : SharesOutput fs plan steps d := by
  have hfile : d.kept.writer.outFile = plan.compiler.outFile := hrun.works.sameFile
  have hprovision : ∀ loc, d.watched = some loc →
      fs.provision plan.compiler.outFile = ((fs.provision plan.compiler.outFile).1, .ok loc) :=
    fun loc hloc => Prod.ext rfl (watched_of_run hrun hloc)
  refine ⟨hfile, writesAlong_of_run hrun, hrun.accounts.isWatched, fun loc => watched_of_run hrun,
    fun hlinks hrooted loc hloc => ?_, fun loc text written hloc hcurrent hreal hfolder hwrite => ?_⟩
  · exact (FileTree.exists_of_provision hlinks hrooted (hprovision loc hloc)).1
  · rw [hfile] at hwrite
    rw [FileTree.textOf, FileTree.contentOf_of_writeFile_provisioned (hprovision loc hloc) hcurrent
      hreal hfolder hwrite, Outcome.bind_ok, FileTree.asText_encode]

/-! ## Plans -/

/-- All that a plan says more than once. -/
structure Agrees (fs : FileTree) (s : Settings) (plan : Plan) : Prop where
  target : TargetOf fs s plan.compiler.target
  bundle : plan.bundle.target = plan.compiler.target
  invocation : plan.invocation = ⟨s.compiler, plan.compiler.arguments⟩
  /-- The options can be told from the words that the compiler is run with. -/
  told : ∀ o : CompilerOptions, o.arguments = plan.invocation.arguments → o = plan.compiler
  named : CompilerOptions.wordBehind "--outFile".toList plan.invocation.arguments =
    some plan.compiler.outFile
  /-- Whatever the compiler is and does, the output of the plan is what is watched and written. -/
  output : ∀ host steps d, Run handler (Build.begin host fs plan) steps d →
    SharesOutput fs plan steps d

/-- **The parts of a plan agree.** -/
theorem agrees_of_resolve (h : Plan.resolve fs s = .ok plan) :
    Function.Injective CompilerOptions.arguments ∧ Agrees fs s plan := by
  refine ⟨fun _ _ => CompilerOptions.arguments_inj, targetOf_of_resolve h, ?_, ?_, ?_,
    wordBehind_outFile_of_resolve h, fun _ _ _ => sharesOutput_of_run⟩ <;>
    obtain ⟨input, kind, e, -, -, -, -, rfl⟩ := Plan.exists_of_resolve h
  · rfl
  · rfl
  · exact fun o => CompilerOptions.arguments_inj

/-- A folder with a project that names a target. -/
def projectText : Text :=
  "\x7b\"compilerOptions\":\x7b\"target\":\" ES6\"\x7d\x7d".toList

def projectFiles : FileTree where
  entries := [(["w".toList], .folder),
    (["w".toList, "tsconfig.json".toList], .file (Text.encode projectText))]
  current := ["w".toList]

def projectInput : Settings :=
  { Settings.default with input := some "tsconfig.json".toList }

theorem agrees_of_resolve_project :
    ∃ plan, Plan.resolve projectFiles projectInput = .ok plan ∧ plan.compiler.target = .es6 ∧
      plan.bundle.target = .es6 ∧ Agrees projectFiles projectInput plan := by
  have htext : projectFiles.readText "tsconfig.json".toList = .ok projectText := by cbv
  have hfile : projectFiles.isFile "tsconfig.json".toList = true := by cbv
  have hparse : (ProjectFile.parse projectText).toOption.map (fun p => p.options.target) =
      some (some " ES6".toList) := by decide +kernel
  obtain ⟨project, hproject, hspelling⟩ := Option.map_eq_some_iff.mp hparse
  have hplan := Plan.resolve_of_project (s := projectInput) rfl (by decide) hfile
    ⟨projectText, htext, Outcome.toOption_eq_some_iff.mp hproject⟩
  have htarget : (Emission.ofProject [] project).target = .es6 := by
    have hnamed : Target.ofName " ES6".toList = .es6 := by decide
    rw [Emission.ofProject, hspelling, ← hnamed]
    rfl
  exact ⟨_, hplan, htarget, htarget, (agrees_of_resolve hplan).2⟩

end AmdBundle
