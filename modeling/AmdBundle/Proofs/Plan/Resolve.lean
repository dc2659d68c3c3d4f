import AmdBundle.Plan
import AmdBundle.Proofs.Compiler.Invocation
import AmdBundle.Proofs.FileTree.Walk

/-!
# How a plan is resolved

* `Emits` : what an input emits if nobody says more, case by case;
* `Plan.exists_of_resolve` : a plan fills in what the input emits, and nothing else;
* `Plan.resolve_of_script`, `Plan.resolve_of_project` : plans of scripts and projects;
* `Target.StandsFor`, `Target.ofName_eq_iff` : the target that a project names, in any spelling.
-/

set_option autoImplicit false

namespace AmdBundle

/-! ## What inputs emit -/

/-- The file describes that project. -/
def DescribesProject (fs : FileTree) (file : Path) (project : ProjectFile) : Prop :=
  ∃ text, fs.readText file = .ok text ∧ ProjectFile.parse text = .ok project

/-- What an input emits if nobody says more. -/
inductive Emits (fs : FileTree) (input : Path) : InputKind → Emission → Prop where
  | script : Emits fs input .script (Emission.ofScript input)
  | project {project : ProjectFile} (hproject : DescribesProject fs input project) :
      Emits fs input .project (Emission.ofProject (Path.parent input) project)

theorem emits_of_ofInput {fs : FileTree} {kind : InputKind} {input : Path} {e : Emission}
    (h : Emission.ofInput fs kind input = .ok e) : Emits fs input kind e := by
  cases kind with
  | script =>
    obtain rfl := Except.ok.inj h
    exact .script
  | project =>
    obtain ⟨text, htext, h⟩ := Outcome.bind_eq_ok_iff.mp h
    obtain ⟨project, hproject, h⟩ := Outcome.bind_eq_ok_iff.mp h
    obtain rfl := Except.ok.inj h
    exact .project ⟨text, Outcome.mapError_eq_ok_iff.mp htext, Outcome.mapError_eq_ok_iff.mp hproject⟩

/-! ## Plans -/

/-- **A plan fills in what the input emits.** -/
theorem Plan.exists_of_resolve {fs : FileTree} {s : Settings} {plan : Plan}
    (h : Plan.resolve fs s = .ok plan) :
    ∃ input kind e, s.input = some input ∧ InputKind.ofPath? input = some kind ∧
      fs.isFile input = true ∧ Emits fs input kind e ∧ plan = Plan.ofEmission s kind input e := by
  unfold Plan.resolve at h
  split at h
  · cases h
  · next input hinput =>
    split at h
    · cases h
    · next kind hkind =>
      split at h
      · next hfile =>
        obtain ⟨e, hemission, rfl⟩ := Outcome.map_eq_ok_iff.mp h
        exact ⟨input, kind, e, hinput, hkind, hfile, emits_of_ofInput hemission, rfl⟩
      · cases h

theorem Plan.resolve_of_script {fs : FileTree} {s : Settings} {input : Path}
    (hinput : s.input = some input) (hkind : InputKind.ofPath? input = some .script)
    (hfile : fs.isFile input = true) :
    Plan.resolve fs s = .ok (Plan.ofEmission s .script input (Emission.ofScript input)) := by
  rw [Plan.resolve, hinput]
  simp only [hkind, hfile, if_true]
  rfl

theorem Plan.resolve_of_project {fs : FileTree} {s : Settings} {input : Path} {project : ProjectFile}
    (hinput : s.input = some input) (hkind : InputKind.ofPath? input = some .project)
    (hfile : fs.isFile input = true) (hproject : DescribesProject fs input project) :
    Plan.resolve fs s =
      .ok (Plan.ofEmission s .project input (Emission.ofProject (Path.parent input) project)) := by
  obtain ⟨text, htext, hparse⟩ := hproject
  have hemission : Emission.ofInput fs .project input =
      .ok (Emission.ofProject (Path.parent input) project) := by
    simp only [Emission.ofInput, Emission.ofProjectFile, htext, hparse, Except.mapError,
      Outcome.bind_ok]
  rw [Plan.resolve, hinput]
  simp only [hkind, hfile, if_true, hemission]
  rfl

/-! ## Names of targets -/

namespace Target

/-- The target of that name, in any letter case and with blanks around it; every other name stands
for the oldest target. -/
def StandsFor (spelling : Text) (target : Target) : Prop :=
  let name := Text.asciiLower (Text.trim Text.isBlank spelling)
  name = target.name.toList ∨ target = .es3 ∧ ∀ other : Target, name ≠ other.name.toList

theorem choices_find?_eq_some_iff {name : Text} {target : Target} :
    choices.find? name = some target ↔ name = target.name.toList := by
  unfold Choices.find?
  constructor
  · intro h
    have hname := List.find?_some h
    rw [decide_eq_true_eq] at hname
    exact hname.symm
  · rintro rfl
    cases target <;> decide

theorem ofName_eq_iff {spelling : Text} {target : Target} :
    ofName spelling = target ↔ StandsFor spelling target := by
  unfold ofName ofName? StandsFor
  cases hfind : choices.find? (Text.asciiLower (Text.trim Text.isBlank spelling)) with
  | some found =>
    have hname := choices_find?_eq_some_iff.mp hfind
    rw [Option.getD_some]
    constructor
    · rintro rfl
      exact .inl hname
    · rintro (hsame | ⟨-, hother⟩)
      · exact name_inj (hname.symm.trans hsame)
      · exact absurd hname (hother found)
  | none =>
    have hother : ∀ other : Target,
        Text.asciiLower (Text.trim Text.isBlank spelling) ≠ other.name.toList := by
      intro other hname
      rw [choices_find?_eq_some_iff.mpr hname] at hfind
      cases hfind
    rw [Option.getD_none]
    constructor
    · rintro rfl
      exact .inr ⟨rfl, hother⟩
    · rintro (hsame | ⟨rfl, -⟩)
      · exact absurd hsame (hother target)
      · rfl

end Target

end AmdBundle
