import AmdBundle.Proofs.FileTree.Provision
import AmdBundle.Proofs.Plan.Resolve
import AmdBundle.Proofs.ResourceKey
import AmdBundle.Settings.Check
import Mathlib

/-!
# The output of a plan and its input

An output whose name is made up from a source ends in another way than any input, so it never takes
the place of the input. An output that somebody named may be anything: nobody compares it with the
input, and if both lead to one place, then the input is emptied before it is compiled.

* `outputName_eq`, `isName_outputName` : the names that are made up;
* `IsNamed` : the outputs that somebody named;
* `sparesInput_of_resolve` : what a plan does to its input;
* `not_outputApart` : an input that is its own output.
-/

set_option autoImplicit false

namespace AmdBundle
open AmdBundle.Path FileTree

/-! ## Names that are made up -/

namespace Emission

/-- A name that is made up is the beginning of a name, or a fixed word, with an ending behind it. -/
theorem outputName_eq (source : Path) :
    ∃ front, outputName source = front ++ ".js".toList ∧ '/' ∉ front := by
  refine ⟨_, rfl, ?_⟩
  unfold stem?
  cases hname : fileName? source with
  | none => decide
  | some name =>
    have hslash := (isName_of_fileName? hname).noSlash
    show '/' ∉ _
    rw [Option.map_some, Option.getD_some]
    split
    · exact hslash
    · next front _ _ hsplit =>
      rw [Text.splitLast_eq_some hsplit] at hslash
      exact fun hmem => hslash (List.mem_append_left _ hmem)
    · exact hslash

theorem isName_outputName (source : Path) : IsName (outputName source) := by
  obtain ⟨front, heq, hslash⟩ := outputName_eq source
  have hlength : 3 ≤ (outputName source).length := by simp [heq]
  refine ⟨?_, ?_, ?_⟩
  · rw [heq]
    simpa using hslash
  · simp only [isIdle, Bool.or_eq_false_iff, beq_eq_false_iff_ne, List.isEmpty_eq_false_iff]
    constructor <;> (intro h; simp [h, here] at hlength)
  · intro h
    simp [h, up] at hlength

theorem outputOfLast_eq (source? : Option Path) :
    ∃ front, outputOfLast source? = front ++ ".js".toList ∧ IsName (outputOfLast source?) := by
  cases source? with
  | none => exact ⟨bundleName, rfl, by decide, by decide, by decide⟩
  | some source =>
    obtain ⟨front, heq, -⟩ := outputName_eq source
    exact ⟨front, heq, isName_outputName source⟩

end Emission

/-- No input has the ending of a name that is made up. -/
theorem InputKind.ofName?_script (front : Text) :
    ofName? (Text.asciiLower (front ++ ".js".toList)) = none := by
  have hlower : Text.asciiLower (front ++ ".js".toList) = Text.asciiLower front ++ ".js".toList := by
    rw [Text.asciiLower, List.map_append]
    rfl
  rw [hlower]
  simp [ofName?, Text.endsWith, List.isSuffixOf]

theorem ne_of_ofPath? {input : Path} {kind : InputKind} (h : InputKind.ofPath? input = some kind) :
    ∃ name, fileName? input = some name ∧ ∀ front, name ≠ front ++ ".js".toList := by
  obtain ⟨name, hname, hkind⟩ := Option.bind_eq_some_iff.mp h
  refine ⟨name, hname, ?_⟩
  rintro front rfl
  rw [InputKind.ofName?_script] at hkind
  cases hkind

/-! ## Last names -/

section
variable {fs : FileTree} {p q : Path} {name : Text}

/-- Wherever the path is seen from, the place that it spells has that name. -/
def EndsIn (p : Path) (name : Text) : Prop :=
  ∀ base, ∃ front, settle base (Path.names p) = front ++ [name]

theorem endsIn_of_fileName? (h : fileName? p = some name) : EndsIn p name := by
  intro base
  rw [settle, foldl_names_of_fileName? h, List.reverse_cons]
  exact ⟨_, rfl⟩

theorem endsIn_join (p : Path) (hname : IsName name) : EndsIn (join p name) name := by
  intro base
  have hself : settle base [name] = base ++ [name] := settle_of_isName (by simpa using hname)
  by_cases hp : p = []
  · subst hp
    have hjoin : join [] name = name := by simp [join, hname.isAbsolute]
    rw [hjoin, hname.names]
    exact ⟨base, hself⟩
  · obtain ⟨front, -, hjoin⟩ := names_join hp hname.isAbsolute
    rw [hjoin, settle_append, ← names_of_relative hname.isAbsolute, hname.names]
    exact ⟨_, settle_of_isName (by simpa using hname)⟩

theorem EndsIn.absolute (h : EndsIn p name) (fs : FileTree) :
    ∃ front, fs.spelled (fs.absolute p) = front ++ [name] := by
  by_cases hp : isAbsolute p = true
  · rw [FileTree.absolute, join, if_pos hp]
    exact h _
  · rw [FileTree.absolute, spelled_join fs _ (Bool.eq_false_iff.mpr hp)]
    exact h _

theorem EndsIn.clean_ne {other : Text} (h : EndsIn p name) (h' : EndsIn q other) (hne : name ≠ other) :
    clean (fs.absolute p) ≠ clean (fs.absolute q) := by
  intro hclean
  -- Both spell one place, so its last name is both names.
  obtain ⟨front, hfront⟩ := h.absolute fs
  obtain ⟨front', hfront'⟩ := h'.absolute fs
  have hspelled := (clean_absolute_eq_iff fs p q).mp hclean
  rw [hfront, hfront'] at hspelled
  exact hne (List.singleton_inj.mp (List.append_inj' hspelled rfl).2)

end

/-! ## What a plan does to its input -/

variable {fs : FileTree} {s : Settings} {plan : Plan}

/-- The outputs that somebody named: the settings, or else the project, seen from its folder. -/
inductive IsNamed (fs : FileTree) (s : Settings) : Path → Prop where
  | bySettings {out : Path} (hout : s.outFile = some out) : IsNamed fs s out
  | byProject {input out : Path} {project : ProjectFile} (hnone : s.outFile = none)
      (hinput : s.input = some input) (hkind : InputKind.ofPath? input = some .project)
      (hproject : DescribesProject fs input project) (hout : project.options.outFile = some out) :
      IsNamed fs s (join (parent input) out)

/-- An output that nobody named ends in a name that is made up. -/
theorem named_or_endsIn (h : Plan.resolve fs s = .ok plan) :
    IsNamed fs s plan.compiler.outFile ∨
      ∃ name front, EndsIn plan.compiler.outFile name ∧ name = front ++ ".js".toList := by
  obtain ⟨input, kind, e, hinput, hkind, -, hemits, rfl⟩ := Plan.exists_of_resolve h
  show IsNamed fs s (s.outFile.getD e.outFile) ∨ ∃ name front, EndsIn (s.outFile.getD e.outFile) name ∧ _
  cases hout : s.outFile with
  | some out => exact .inl (.bySettings hout)
  | none =>
    rw [Option.getD_none]
    cases hemits with
    | script =>
      obtain ⟨front, heq, -⟩ := Emission.outputName_eq input
      exact .inr ⟨_, front, endsIn_join _ (Emission.isName_outputName input), heq⟩
    | @project project hproject =>
      obtain ⟨front, heq, hname⟩ := Emission.outputOfLast_eq project.lastSource?
      show IsNamed fs s (Emission.projectFile _ project) ∨
        ∃ name front, EndsIn (Emission.projectFile _ project) name ∧ _
      unfold Emission.projectFile
      split
      · next hproject' => exact .inl (.byProject hout hinput hkind hproject hproject')
      · exact .inr ⟨_, front, endsIn_join _ hname, heq⟩
      · exact .inr ⟨_, front, endsIn_join _ hname, heq⟩

theorem IsNamed.eq_outFile (h : Plan.resolve fs s = .ok plan) {out : Path} (hnamed : IsNamed fs s out) :
    plan.compiler.outFile = out := by
  obtain ⟨input, kind, e, hinput, hkind, -, hemits, rfl⟩ := Plan.exists_of_resolve h
  show s.outFile.getD e.outFile = out
  cases hnamed with
  | bySettings hout => rw [hout, Option.getD_some]
  | @byProject input' out project hnone hinput' hkind' hproject hout =>
    obtain rfl := Option.some.inj (hinput.symm.trans hinput')
    obtain rfl := Option.some.inj (hkind.symm.trans hkind')
    rw [hnone, Option.getD_none]
    cases hemits with
    | @project project' hproject' =>
      obtain ⟨text, htext, hparse⟩ := hproject
      obtain ⟨text', htext', hparse'⟩ := hproject'
      obtain rfl := Except.ok.inj (htext.symm.trans htext')
      obtain rfl := Except.ok.inj (hparse.symm.trans hparse')
      show Emission.projectFile _ project = _
      rw [Emission.projectFile, hout]

/-- What the output of a plan does to its input. -/
structure SparesInput (fs : FileTree) (s : Settings) (plan : Plan) : Prop where
  named : ∀ out, IsNamed fs s out → plan.compiler.outFile = out
  /-- A made-up output is not the input, however both are spelled. -/
  apart : (∀ out, ¬ IsNamed fs s out) →
    clean (fs.absolute plan.compiler.outFile) ≠ clean (fs.absolute plan.compiler.inFile)
  unprovisioned : ∀ made reason, fs.provision plan.compiler.outFile = (made, .error reason) →
    made.contentOf plan.compiler.inFile = fs.contentOf plan.compiler.inFile
  spared : ∀ made watched, fs.provision plan.compiler.outFile = (made, .ok watched) →
    made.locate (pathOf watched) ≠ made.locate plan.compiler.inFile →
    made.contentOf plan.compiler.inFile = fs.contentOf plan.compiler.inFile
  emptied : ∀ made watched, fs.provision plan.compiler.outFile = (made, .ok watched) →
    made.locate (pathOf watched) = made.locate plan.compiler.inFile →
    made.contentOf plan.compiler.inFile = .ok []
  /-- Where there are no links, both lead to one place exactly if they have one clean form. -/
  clean_iff : fs.HasNoLinks → fs.IsRooted → ∀ made watched,
    fs.provision plan.compiler.outFile = (made, .ok watched) →
    (made.locate (pathOf watched) = made.locate plan.compiler.inFile ↔
      clean (fs.absolute plan.compiler.outFile) = clean (fs.absolute plan.compiler.inFile))

theorem exists_contentOf_of_resolve (h : Plan.resolve fs s = .ok plan) :
    ∃ content, fs.contentOf plan.compiler.inFile = .ok content := by
  obtain ⟨input, kind, e, -, -, hfile, -, rfl⟩ := Plan.exists_of_resolve h
  show ∃ content, fs.contentOf input = .ok content
  unfold isFile at hfile
  split at hfile
  · next content hentry =>
    obtain ⟨loc, hloc, hfind⟩ := entryAt?_eq_ok hentry
    exact ⟨content, contentOf_eq_ok_iff.mpr ⟨loc, hloc, hfind⟩⟩
  · cases hfile

theorem sparesInput_of_plan (h : Plan.resolve fs s = .ok plan) : SparesInput fs s plan := by
  obtain ⟨content, hcontent⟩ := exists_contentOf_of_resolve h
  refine ⟨fun out hnamed => hnamed.eq_outFile h, ?_, ?_, ?_, ?_, ?_⟩
  · intro hnone
    obtain ⟨input, kind, e, -, hkind, -, -, rfl⟩ := Plan.exists_of_resolve h
    obtain ⟨name, hname, hne⟩ := ne_of_ofPath? hkind
    rcases named_or_endsIn h with hnamed | ⟨out, front, hout, rfl⟩
    · exact absurd hnamed (hnone _)
    · exact hout.clean_ne (endsIn_of_fileName? hname) (Ne.symm (hne front))
  · intro made reason hprovision
    rw [contentOf_of_unprovisioned hprovision hcontent, hcontent]
  · intro made watched hprovision hne
    rcases contentOf_of_provision hprovision hcontent with ⟨heq, -⟩ | ⟨-, hkept⟩
    · exact absurd heq hne
    · rw [hcontent, hkept]
  · intro made watched hprovision heq
    rcases contentOf_of_provision hprovision hcontent with ⟨-, hempty⟩ | ⟨hne, -⟩
    · exact hempty
    · exact absurd heq hne
  · intro hlinks hrooted made watched hprovision
    obtain ⟨placed, found, hplaced, hbefore, hfound, -⟩ := find?_of_provision hprovision hcontent
    obtain rfl := eq_spelled_of_provision hlinks hrooted hprovision hplaced
    obtain rfl := eq_spelled_of_locate hlinks hrooted hbefore
    rw [hplaced, hfound, clean_absolute_eq_iff, spelled_absolute hrooted, spelled_absolute hrooted,
      Except.ok.injEq]

/-- An output that nobody named leaves the input as it was where there are no links. -/
theorem SparesInput.kept (h : SparesInput fs s plan) (hlinks : fs.HasNoLinks) (hrooted : fs.IsRooted)
    (hnone : ∀ out, ¬ IsNamed fs s out) :
    (fs.provision plan.compiler.outFile).1.contentOf plan.compiler.inFile =
      fs.contentOf plan.compiler.inFile := by
  cases hprovision : fs.provision plan.compiler.outFile with
  | mk made outcome =>
    cases outcome with
    | error reason => exact h.unprovisioned made reason hprovision
    | ok watched =>
      exact h.spared made watched hprovision
        ((h.clean_iff hlinks hrooted made watched hprovision).not.mpr (h.apart hnone))

/-- **What the output of a plan does to its input.** Where there are no links, the input stays as it is
if nobody named the output. Only an output that somebody named, or one that links lead to the input, can
be the input, and then provisioning it empties the input. -/
theorem sparesInput_of_resolve (h : Plan.resolve fs s = .ok plan) :
    (fs.HasNoLinks → fs.IsRooted → (∀ out, ¬ IsNamed fs s out) →
      (fs.provision plan.compiler.outFile).1.contentOf plan.compiler.inFile =
        fs.contentOf plan.compiler.inFile) ∧ SparesInput fs s plan :=
  ⟨(sparesInput_of_plan h).kept, sparesInput_of_plan h⟩

/-- A folder with one script. -/
def scriptFiles : FileTree where
  entries := [(["w".toList], .folder), (["w".toList, "main.ts".toList], .file [35])]
  current := ["w".toList]

def scriptInput : Settings :=
  { Settings.default with input := some "main.ts".toList }

theorem sparesInput_of_resolve_script :
    ∃ plan, Plan.resolve scriptFiles scriptInput = .ok plan ∧
      plan.compiler.outFile = "main.js".toList ∧ SparesInput scriptFiles scriptInput plan ∧
      (scriptFiles.provision "main.js".toList).1.contentOf "main.ts".toList = .ok [35] := by
  have hfile : scriptFiles.isFile "main.ts".toList = true := by cbv
  have hlinks : scriptFiles.HasNoLinks := by simp [HasNoLinks, scriptFiles]
  have hrooted : scriptFiles.IsRooted := by
    simp only [IsRooted, scriptFiles, List.forall_mem_singleton]
    exact ⟨by decide, by decide, by decide⟩
  have hnone : ∀ out, ¬ IsNamed scriptFiles scriptInput out := by
    rintro out (hout | ⟨-, hinput, hkind, -, -⟩)
    · cases hout
    · obtain rfl := Option.some.inj hinput
      exact absurd hkind (by decide)
  have hplan := Plan.resolve_of_script (s := scriptInput) rfl (by decide) hfile
  obtain ⟨hkept, hspares⟩ := sparesInput_of_resolve hplan
  have hout : (Plan.ofEmission scriptInput .script "main.ts".toList
      (Emission.ofScript "main.ts".toList)).compiler.outFile = "main.js".toList := by decide
  have hbefore : scriptFiles.contentOf "main.ts".toList = .ok [35] := by cbv
  rw [hout] at hkept
  exact ⟨_, hplan, hout, hspares, (hkept hlinks hrooted hnone).trans hbefore⟩

/-- The output of settings that make sense is never their input. -/
def OutputApart : Prop :=
  ∀ fs s plan, s.check = .ok () → Plan.resolve fs s = .ok plan →
    clean (fs.absolute plan.compiler.outFile) ≠ clean (fs.absolute plan.compiler.inFile)

/-- No output of settings that make sense changes their input when it is provisioned. -/
def InputKept : Prop :=
  ∀ fs s plan made watched, s.check = .ok () → Plan.resolve fs s = .ok plan →
    fs.provision plan.compiler.outFile = (made, .ok watched) →
    made.contentOf plan.compiler.inFile = fs.contentOf plan.compiler.inFile

/-- A script that is its own output. -/
def ownInput : Settings :=
  { scriptInput with outFile := some "main.ts".toList }

/-- A script that is its own output is emptied before it is compiled. -/
theorem not_outputApart : ¬ OutputApart ∧ ¬ InputKept := by
  have hcheck : ownInput.check = .ok () := by decide +kernel
  have hfile : scriptFiles.isFile "main.ts".toList = true := by cbv
  have hplan := Plan.resolve_of_script (s := ownInput) rfl (by decide) hfile
  refine ⟨fun hapart => hapart _ _ _ hcheck hplan rfl, fun hkept => ?_⟩
  have hprovision : (scriptFiles.provision "main.ts".toList).2 =
      .ok ["w".toList, "main.ts".toList] := by cbv
  have hsame := hkept scriptFiles ownInput _ _ _ hcheck hplan (Prod.ext rfl hprovision)
  have hbefore : scriptFiles.contentOf "main.ts".toList = .ok [35] := by cbv
  have hafter : (scriptFiles.provision "main.ts".toList).1.contentOf "main.ts".toList = .ok [] := by
    cbv
  exact absurd (hafter.symm.trans (hsame.trans hbefore)) (by simp)

end AmdBundle
