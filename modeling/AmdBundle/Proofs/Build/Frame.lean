import AmdBundle.Proofs.Build.LastEmission
import AmdBundle.Proofs.FileTree.Provision
import AmdBundle.Proofs.Plan.Resolve
import AmdBundle.Proofs.Resource.Folder
import AmdBundle.Proofs.Settings.Precedence

/-!
# What a build changes itself

The compiler and the programs beside it may do anything to the files. All that the build does itself
is to provision the output and to write bundles to it. Where there are no links, that changes the
output and the missing folders above it.

* `SameBut` : two trees that differ at one place at most; `textAt?` : the text at a place;
* `Stays`, `stays_of_run` : trees that stay without links;
* `Change.files_of_own`, `writesAlong_of_run` : steps in which no program acts;
* `watched_of_run`, `exists_read_of_noticed`, `exists_read_of_writing` : what is watched, noticed and
  bundled;
* `Origin`, `origin_of_run` : where the text of the output comes from;
* `writes_only_output` : what a build changes; `not_leavesOwnText` : an output that stays as it was.
-/

set_option autoImplicit false

namespace AmdBundle

/-! ## Trees -/

namespace FileTree
variable {fs now later : FileTree} {loc : Location} {p : Path}

/-- The trees differ at one place at most. -/
def SameBut (loc : Location) (fs now : FileTree) : Prop :=
  ∀ key, key ≠ loc → now.find? key = fs.find? key

theorem SameBut.refl (loc : Location) (fs : FileTree) : SameBut loc fs fs :=
  fun _ _ => rfl

theorem SameBut.trans (h : SameBut loc fs now) (h' : SameBut loc now later) :
    SameBut loc fs later :=
  fun key hkey => (h' key hkey).trans (h key hkey)

theorem sameBut_set (hloc : loc ≠ []) (fs : FileTree) (entry : Entry) :
    SameBut loc fs (fs.set loc entry) := by
  intro key hkey
  rw [find?_set hloc, if_neg hkey]

/-- The text of the file at a place. -/
def textAt? (fs : FileTree) (loc : Location) : Option Text :=
  match fs.find? loc with
  | some (.file content) => Text.decode content
  | _ => none

theorem textAt?_of_find? {content : Bytes} (h : fs.find? loc = some (.file content)) :
    fs.textAt? loc = Text.decode content := by
  rw [textAt?, h]

theorem textAt?_congr (h : now.find? loc = fs.find? loc) : now.textAt? loc = fs.textAt? loc := by
  rw [textAt?, textAt?, h]

/-- There are no links, and the current folder is the same. -/
structure Stays (fs now : FileTree) : Prop where
  noLinks : now.HasNoLinks
  current : now.current = fs.current

theorem Stays.isRooted (h : Stays fs now) (hrooted : fs.IsRooted) : now.IsRooted := by
  unfold IsRooted
  rwa [h.current]

theorem Stays.spelled (h : Stays fs now) (p : Path) : now.spelled p = fs.spelled p :=
  spelled_congr h.current p

/-- A path leads to the text at the place that it spells. -/
theorem Stays.textAt?_of_textOf (h : Stays fs now) (hrooted : fs.IsRooted) {text : Text}
    (htext : now.textOf p = .ok text) : now.textAt? (fs.spelled p) = some text := by
  obtain ⟨content, hcontent, hdecode⟩ := Outcome.bind_eq_ok_iff.mp htext
  obtain ⟨loc, hloc, hfind⟩ := contentOf_eq_ok_iff.mp hcontent
  rw [← h.spelled, ← eq_spelled_of_locate h.noLinks (h.isRooted hrooted) hloc,
    textAt?_of_find? hfind]
  exact asText_eq_ok_iff.mp hdecode

/-- A file is written at the place that its path spells. -/
theorem Stays.of_writeFile (h : Stays fs now) (hrooted : fs.IsRooted) {written : FileTree}
    {content : Bytes} (hwrite : now.writeFile p content = .ok written) :
    Stays fs written ∧ SameBut (fs.spelled p) now written := by
  obtain ⟨loc, hloc, rfl⟩ := writeFile_eq_ok_iff.mp hwrite
  obtain rfl : loc = fs.spelled p := by
    rw [← h.spelled]
    exact eq_spelled_of_placeOf h.noLinks (h.isRooted hrooted) hloc
  exact ⟨⟨hasNoLinks_set h.noLinks (by simp) _, h.current⟩,
    sameBut_set (takesFile_of_placeOf hloc).notRoot _ _⟩

/-- Provisioning makes no links and stays in the current folder. -/
theorem stays_provision (hlinks : fs.HasNoLinks) (p : Path) : Stays fs (fs.provision p).1 := by
  have hprovisioned := provisioned fs p
  generalize fs.provision p = result at hprovisioned ⊢
  cases hprovisioned with
  | fails hway => exact ⟨hway.noLinks hlinks, hway.current⟩
  | succeeds hway => exact ⟨hasNoLinks_set (hway.noLinks hlinks) (by simp) _, hway.current⟩

/-- An output that was provisioned is empty, and one that could not be holds the text that it held. -/
theorem textAt?_provision (hlinks : fs.HasNoLinks) (hrooted : fs.IsRooted) {text : Text}
    (htext : (fs.provision p).1.textAt? (fs.spelled p) = some text) :
    (∃ watched, (fs.provision p).2 = .ok watched) ∧ text = [] ∨
      (∃ reason, (fs.provision p).2 = .error reason) ∧ fs.textAt? (fs.spelled p) = some text := by
  cases hprovision : fs.provision p with
  | mk made outcome =>
    rw [hprovision] at htext
    cases outcome with
    | ok watched =>
      obtain ⟨rfl, before, -, htakes, rfl⟩ := exists_of_provision hlinks hrooted hprovision
      rw [textAt?_of_find? (by rw [find?_set htakes.notRoot, if_pos rfl])] at htext
      exact .inl ⟨⟨_, rfl⟩, (Option.some.inj htext).symm⟩
    | error reason =>
      right
      refine ⟨⟨reason, rfl⟩, ?_⟩
      have hprovisioned := provisioned fs p
      rw [hprovision] at hprovisioned
      cases hprovisioned with
      | fails hway =>
        rcases hway.find? (fs.spelled p) with hsame | ⟨-, hfolder, -⟩
        · rwa [textAt?_congr hsame] at htext
        · rw [textAt?, hfolder] at htext
          cases htext

end FileTree

/-! ## Steps -/

namespace Compilation
open Build (handler)
open FileTree (SameBut Stays)

variable {c d e m : Compilation BuildState} {event : Event} {steps : List (Step BuildState)}

/-- A step in which no program acts writes a bundle, or leaves the files alone. -/
theorem Change.files_of_own (hc : Change handler c event e) (hown : ¬ event.IsAct) :
    e.files = c.files ∨ ∃ out, c.kept.writer.task = .writing out ∧
      c.files.writeFile c.kept.writer.outFile (Text.encode out) = .ok e.files := by
  cases hc.turn with
  | acts hevent => exact absurd hevent hown
  | reads _ hfiles => exact .inl hfiles
  | takes _ _ hfiles => exact .inl hfiles
  | works _ _ hfiles hwork =>
    cases hwork with
    | bundles => exact .inl hfiles
    | misses => exact .inl hfiles
    | writes htask hwrite => exact .inr ⟨_, htask, hfiles ▸ hwrite⟩
    | gaveUp => exact .inl hfiles
  | rests hfiles => exact .inl hfiles

theorem Change.watched {η : Type} {h : Handler η} {c e : Compilation η} (hc : Change h c event e)
    {loc : Location} (hwatched : e.watched = some loc) : c.watched = some loc := by
  have hby : ∀ driver, watchedBy driver c.watched = some loc → c.watched = some loc := by
    intro driver hdriver
    unfold watchedBy at hdriver
    split at hdriver
    · cases hdriver
    · exact hdriver
  cases hc with
  | isThrough => exact hby _ hwatched
  | tells => exact hby _ hwatched
  | drives => exact hby _ hwatched
  | _ => exact hwatched

/-! ## Runs -/

section
variable {host : Host} {fs : FileTree} {invocation : Invocation} {outFile : Path}
  {options : BundleOptions}

theorem files_of_starts {η : Type} {kept : η} {c : Compilation η}
    (hstart : Starts host fs invocation outFile kept c) : c.files = (fs.provision outFile).1 := by
  cases hstart with
  | unprovided hprovision => rw [hprovision]; rfl
  | unwatched hprovision => rw [hprovision]; rfl
  | unstarted hprovision => rw [hprovision]; rfl
  | runs hprovision => rw [hprovision]; rfl

theorem watched_of_starts {η : Type} {kept : η} {c : Compilation η}
    (hstart : Starts host fs invocation outFile kept c) {loc : Location}
    (hwatched : c.watched = some loc) : (fs.provision outFile).2 = .ok loc := by
  cases hstart with
  | unprovided => cases hwatched
  | unwatched => cases hwatched
  | unstarted => cases hwatched
  | runs hprovision =>
    obtain rfl := Option.some.inj hwatched
    rw [hprovision]

/-- What is watched along a compile is the output that was provisioned. -/
theorem watched_of_run {η : Type} {h : Handler η} {kept : η} {d : Compilation η}
    {steps : List (Step η)} (hrun : Run h (start host fs invocation outFile kept) steps d)
    {loc : Location} (hwatched : d.watched = some loc) : (fs.provision outFile).2 = .ok loc := by
  induction hrun with
  | start => exact watched_of_starts (starts_start host fs invocation outFile kept) hwatched
  | step event _ hstep ih => exact ih ((change_of_step hstep).watched hwatched)

/-- Whatever the programs do, a step in which none of them acts leaves the files alone, or writes a
bundle along the path of the output. -/
def WritesAlong (options : BundleOptions) (outFile : Path) (steps : List (Step BuildState)) : Prop :=
  ∀ s ∈ steps, ¬ s.event.IsAct → s.after.files = s.before.files ∨
    ∃ content out, IsBundleOf options steps content out ∧
      s.before.files.writeFile outFile (Text.encode out) = .ok s.after.files

theorem writesAlong_of_run
    (hrun : Run handler (start host fs invocation outFile ⟨.start outFile options, []⟩) steps d) :
    WritesAlong options outFile steps := by
  intro s hs hown
  obtain ⟨front, back, rfl⟩ := List.append_of_mem hs
  obtain ⟨hfront, hstep, -⟩ := hrun.split
  rcases (change_of_step hstep).files_of_own hown with hsame | ⟨out, htask, hwrite⟩
  · exact .inl hsame
  · obtain ⟨content, -, hbundle⟩ := hfront.works.writing _ htask
    rw [hfront.works.sameFile] at hwrite
    exact .inr ⟨content, out, hbundle.append _, hwrite⟩

/-- What was noticed was the text of the output. -/
theorem exists_output_of_noticed (hrun : Run handler c steps d) {content : Text}
    (hcontent : content ∈ steps.filterMap Step.noticed?) :
    ∃ front s back, steps = front ++ s :: back ∧ s.event = .read ∧
      s.before.outputText? = some content := by
  obtain ⟨s, hs, hnoticed⟩ := List.mem_filterMap.mp hcontent
  obtain ⟨front, back, rfl⟩ := List.append_of_mem hs
  obtain ⟨-, hstep, -⟩ := hrun.split
  refine ⟨front, s, back, rfl, ?_⟩
  cases (change_of_step hstep).turn with
  | acts hevent =>
    rw [show s.noticed? = none from noticed?_of_isAct hevent] at hnoticed
    cases hnoticed
  | reads hevent _ _ htext => exact ⟨hevent, htext content hnoticed⟩
  | takes _ hevent =>
    simp [Step.noticed?, hevent] at hnoticed
  | works hevent => simp [Step.noticed?, hevent] at hnoticed
  | rests _ _ hnone =>
    rw [show s.noticed? = none from hnone] at hnoticed
    cases hnoticed

/-- Programs make no links and leave the current folder where it is. -/
def ActsPlainly (fs : FileTree) (steps : List (Step BuildState)) : Prop :=
  ∀ s ∈ steps, s.event.IsAct → Stays fs s.after.files

theorem ActsPlainly.left {back : List (Step BuildState)} (h : ActsPlainly fs (steps ++ back)) :
    ActsPlainly fs steps :=
  fun s hs => h s (List.mem_append_left back hs)

theorem Change.stays (hc : Change handler c event e) (hrooted : fs.IsRooted) (h : Stays fs c.files)
    (hact : event.IsAct → Stays fs e.files) : Stays fs e.files := by
  by_cases hevent : event.IsAct
  · exact hact hevent
  · rcases hc.files_of_own hevent with hsame | ⟨out, -, hwrite⟩
    · rwa [hsame]
    · exact (h.of_writeFile hrooted hwrite).1

theorem stays_of_run (hrooted : fs.IsRooted) (h : Stays fs c.files) (hrun : Run handler c steps d)
    (hacts : ActsPlainly fs steps) : Stays fs d.files := by
  induction hrun with
  | start => exact h
  | @step steps c' e event _ hstep ih =>
    have hact := hacts ⟨c', event, e⟩ (by simp)
    exact (change_of_step hstep).stays hrooted (ih hacts.left) hact

theorem sameBut_of_run {loc : Location} (hrun : Run handler c steps d)
    (h : ∀ s ∈ steps, SameBut loc s.before.files s.after.files) : SameBut loc c.files d.files := by
  induction hrun with
  | start => exact .refl loc _
  | @step steps c' e event _ hstep ih =>
    have hlast := h ⟨c', event, e⟩ (by simp)
    exact (ih fun s hs => h s (List.mem_append_left _ hs)).trans hlast

theorem stays_of_start {η : Type} {kept : η} (hlinks : fs.HasNoLinks) (host : Host)
    (invocation : Invocation) (outFile : Path) :
    Stays fs (start host fs invocation outFile kept).files := by
  rw [files_of_starts (starts_start host fs invocation outFile kept)]
  exact FileTree.stays_provision hlinks outFile

/-! ## The text of the output -/

/-- Where the text comes from to which the path of the output leads. -/
inductive Origin (fs : FileTree) (outFile : Path) (options : BundleOptions)
    (steps : List (Step BuildState)) (text : Text) : Prop where
  | provisioned (hwatched : ∃ watched, (fs.provision outFile).2 = .ok watched) (hempty : text = [])
  /-- The output could not be provisioned, and held the text before. -/
  | held (hreason : ∃ reason, (fs.provision outFile).2 = .error reason)
      (hbefore : fs.textAt? (fs.spelled outFile) = some text)
  /-- A program put it there. -/
  | emitted {s : Step BuildState} (hs : s ∈ steps) (hact : s.event.IsAct)
      (hbefore : s.before.files.textOf outFile ≠ .ok text)
      (hafter : s.after.files.textOf outFile = .ok text)
  /-- It is the bundle of a text that was read from the output. -/
  | bundled {s : Step BuildState} {content : Text} (hs : s ∈ steps) (hread : s.event = .read)
      (hcontent : s.before.files.readText (FileTree.pathOf (fs.spelled outFile)) = .ok content)
      (hbundle : IsBundleOf options steps content text)

theorem Origin.append {text : Text} (h : Origin fs outFile options steps text)
    (more : List (Step BuildState)) : Origin fs outFile options (steps ++ more) text := by
  cases h with
  | provisioned hwatched hempty => exact .provisioned hwatched hempty
  | held hreason hbefore => exact .held hreason hbefore
  | emitted hs hact hbefore hafter => exact .emitted (List.mem_append_left _ hs) hact hbefore hafter
  | bundled hs hread hcontent hbundle =>
    exact .bundled (List.mem_append_left _ hs) hread hcontent (hbundle.append more)

section
variable (hlinks : fs.HasNoLinks) (hrooted : fs.IsRooted)
  (hrun : Run handler (start host fs invocation outFile ⟨.start outFile options, []⟩) steps d)
include hlinks hrooted hrun

/-- What was noticed was read from the output. -/
theorem exists_read_of_noticed {content : Text}
    (hcontent : content ∈ steps.filterMap Step.noticed?) :
    ∃ s ∈ steps, s.event = .read ∧
      s.before.files.readText (FileTree.pathOf (fs.spelled outFile)) = .ok content := by
  obtain ⟨front, s, back, rfl, hread, houtput⟩ := exists_output_of_noticed hrun hcontent
  obtain ⟨hfront, -, -⟩ := hrun.split
  obtain ⟨loc, hwatched, htext⟩ := Option.bind_eq_some_iff.mp houtput
  have hprovision : fs.provision outFile = ((fs.provision outFile).1, .ok loc) :=
    Prod.ext rfl (watched_of_run hfront hwatched)
  obtain ⟨rfl, -⟩ := FileTree.exists_of_provision hlinks hrooted hprovision
  exact ⟨s, by simp, hread, Outcome.toOption_eq_some_iff.mp htext⟩

/-- A bundle that is going to be written is that of a text that was read from the output. -/
theorem exists_read_of_writing {out : Text} (htask : d.kept.writer.task = .writing out) :
    ∃ s ∈ steps, s.event = .read ∧ ∃ content,
      s.before.files.readText (FileTree.pathOf (fs.spelled outFile)) = .ok content ∧
      IsBundleOf options steps content out := by
  obtain ⟨content, hlast, hbundle⟩ := hrun.works.writing _ htask
  have hnoticed : content ∈ steps.filterMap Step.noticed? := by
    have hbegins := bundled_isPrefix hrun.accounts hrun.feeds
    have hbundled := List.mem_of_getLast? hlast
    exact (List.mem_filter.mp (hbegins.subset (List.mem_append_left _ hbundled))).1
  obtain ⟨s, hs, hread, hcontent⟩ := exists_read_of_noticed hlinks hrooted hrun hnoticed
  exact ⟨s, hs, hread, content, hcontent, hbundle⟩

theorem origin_of_run {text : Text} (htext : d.files.textOf outFile = .ok text) :
    Origin fs outFile options steps text := by
  induction hrun generalizing text with
  | start =>
    rw [files_of_starts (starts_start host fs invocation outFile _)] at htext
    have hplace := (FileTree.stays_provision hlinks outFile).textAt?_of_textOf hrooted htext
    rcases FileTree.textAt?_provision hlinks hrooted hplace with
      ⟨hwatched, hempty⟩ | ⟨hreason, hbefore⟩
    · exact .provisioned hwatched hempty
    · exact .held hreason hbefore
  | @step steps c e event hrun hstep ih =>
    -- The text stood there before the last step, or that step put it there.
    by_cases hsame : c.files.textOf outFile = .ok text
    · exact (ih hsame).append _
    by_cases hact : event.IsAct
    · exact .emitted (s := ⟨c, event, e⟩) (by simp) hact hsame htext
    rcases (change_of_step hstep).files_of_own hact with hfiles | ⟨out, htask, hwrite⟩
    · rw [hfiles] at htext
      exact absurd htext hsame
    · rw [hrun.works.sameFile] at hwrite
      have hwritten := FileTree.textOf_of_writeFile hwrite
      obtain rfl := Except.ok.inj (hwritten.symm.trans htext)
      obtain ⟨s, hs, hread, content, hcontent, hbundle⟩ :=
        exists_read_of_writing hlinks hrooted hrun htask
      exact (Origin.bundled hs hread hcontent hbundle).append _

/-- As long as the programs make no links, a step of the build's own changes one place. -/
theorem sameBut_of_own (hacts : ActsPlainly fs steps) {s : Step BuildState} (hs : s ∈ steps)
    (hown : ¬ s.event.IsAct) : SameBut (fs.spelled outFile) s.before.files s.after.files := by
  rcases writesAlong_of_run hrun s hs hown with hsame | ⟨content, out, -, hwrite⟩
  · rw [hsame]
    exact .refl _ _
  · obtain ⟨front, back, rfl⟩ := List.append_of_mem hs
    obtain ⟨hfront, -, -⟩ := hrun.split
    have hstays := stays_of_run hrooted (stays_of_start hlinks host invocation outFile) hfront hacts.left
    exact (hstays.of_writeFile hrooted hwrite).2

end

end

/-! ## Builds -/

/-- What a build with that plan changes itself, along any run of it. -/
structure WritesOnlyOutput (host : Host) (fs : FileTree) (plan : Plan) (steps : List (Step BuildState))
    (d : Compilation BuildState) : Prop where
  /-- At the start the output is emptied, and folders above it are made where nothing stood. -/
  start : ∀ key, (Build.begin host fs plan).files.find? key = fs.find? key ∨
    (fs.find? key = none ∧ (Build.begin host fs plan).files.find? key = some .folder ∧
      fs.IsAbove plan.compiler.outFile key) ∨
    key = fs.spelled plan.compiler.outFile ∧
      (Build.begin host fs plan).files.find? key = some (.file [])
  /-- Later on, bundles are written along its path. -/
  own : WritesAlong plan.bundle plan.compiler.outFile steps
  /-- As long as the programs make no links, that changes one place, and every other place is as the
  programs left it. -/
  others : ActsPlainly fs steps → ∀ front back m, steps = front ++ back → Run handler m back d →
    (∀ s ∈ back, ¬ s.event.IsAct) → SameBut (fs.spelled plan.compiler.outFile) m.files d.files
  text : ∀ text, d.files.textOf plan.compiler.outFile = .ok text →
    Origin fs plan.compiler.outFile plan.bundle steps text

theorem writesOnlyOutput_of_run {host : Host} {fs : FileTree} {plan : Plan} (hlinks : fs.HasNoLinks)
    (hrooted : fs.IsRooted) (hrun : Run handler (Build.begin host fs plan) steps d) :
    WritesOnlyOutput host fs plan steps d := by
  refine ⟨fun key => ?_, writesAlong_of_run hrun, ?_, fun text => origin_of_run hlinks hrooted hrun⟩
  · rw [Build.begin, files_of_starts (starts_start host fs _ _ _)]
    exact FileTree.find?_provision hlinks hrooted _ key
  · rintro hacts front back m rfl hback hnone
    exact sameBut_of_run hback fun s hs =>
      sameBut_of_own hlinks hrooted hrun hacts (List.mem_append_right front hs) (hnone s hs)

/-- **What a build changes itself.** If it cannot be prepared, nothing. Otherwise, in a tree without
links, its output and the missing folders above it, whatever the compiler is and does, and whatever else
happens along the way. -/
theorem writes_only_output (host : Host) {fs : FileTree} (hlinks : fs.HasNoLinks) (hrooted : fs.IsRooted)
    (environment : Settings.Variables) (arguments : BuildArguments) :
    (∀ e, Build.prepare fs environment arguments = .error e →
      (build host fs environment arguments).files = fs) ∧
    ∀ plan, Build.prepare fs environment arguments = .ok plan →
      (∃ steps d, Run handler (Build.begin host fs plan) steps d ∧
        build host fs environment arguments = Build.resultOf d) ∧
      ∀ steps d, Run handler (Build.begin host fs plan) steps d →
        WritesOnlyOutput host fs plan steps d := by
  refine ⟨fun e hprepare => ?_, fun plan hprepare => ⟨?_, fun steps d hrun => ?_⟩⟩
  · rw [build, hprepare]
  · obtain ⟨steps, hrun⟩ := Clock.exists_run (Build.timing plan) handler (Build.begin host fs plan)
    exact ⟨steps, _, hrun, by rw [build, hprepare]⟩
  · exact writesOnlyOutput_of_run hlinks hrooted hrun

/-! ## Builds of a script -/

/-- A folder with a script, and a file two folders below. -/
def deepFiles : FileTree where
  entries := [(["w".toList], .folder), (["w".toList, "main.ts".toList], .file [35]),
    (["w".toList, "d".toList], .folder), (["w".toList, "d".toList, "e".toList], .folder),
    (["w".toList, "d".toList, "e".toList, "o".toList], .file [111, 108, 100])]
  current := ["w".toList]

theorem noLinks_deepFiles : deepFiles.HasNoLinks := by
  simp [FileTree.HasNoLinks, deepFiles]

theorem isRooted_deepFiles : deepFiles.IsRooted :=
  List.forall_mem_singleton.mpr (by decide : FileTree.CanName "w".toList).toIsName

/-- A program compiles the script to a path. -/
def argumentsTo (program : Text) (out : Path) : BuildArguments :=
  { BuildArguments.none with
    input := some "main.ts".toList, outFile := some out, compiler := some program }

def settingsTo (program : Text) (out : Path) : Settings :=
  { Settings.default with
    input := some "main.ts".toList, outFile := some out, compiler := program }

def planTo (program : Text) (out : Path) : Plan :=
  .ofEmission (settingsTo program out) .script "main.ts".toList (Emission.ofScript "main.ts".toList)

theorem prepare_deepFiles {program : Text} {out : Path}
    (hcheck : (settingsTo program out).check = .ok ()) :
    Build.prepare deepFiles [] (argumentsTo program out) = .ok (planTo program out) := by
  have hnone : Settings.settingsFile? deepFiles none = .ok none := by
    have habsent : deepFiles.isFile Settings.fileName = false := by cbv
    rw [Settings.settingsFile?, habsent]
    rfl
  have hfile : deepFiles.isFile "main.ts".toList = true := by cbv
  have hload : Settings.load deepFiles [] (argumentsTo program out) = .ok (settingsTo program out) :=
    Settings.load_of_absent hnone ⟨rfl, rfl, rfl, rfl, rfl, rfl, rfl, rfl, rfl, rfl, rfl, rfl⟩
  have hplan := Plan.resolve_of_script (s := settingsTo program out) rfl (by decide) hfile
  simp only [Build.prepare, hload, Except.mapError, Outcome.bind_ok, hcheck]
  exact hplan

/-- The file below, once it is provisioned as an output. -/
def emptiedFiles : FileTree :=
  deepFiles.set ["w".toList, "d".toList, "e".toList, "o".toList] (.file [])

def removedFiles : FileTree :=
  emptiedFiles.erase ["w".toList, "main.ts".toList]

/-- A program that removes the script. -/
def removing : Activity :=
  .change (fun fs => fs.erase ["w".toList, "main.ts".toList]) fun _ => .ended (.code 0)

/-- The script is removed by what stands for its compiler, and the output is emptied by the build. -/
theorem writes_only_output_removed :
    ∃ steps d, Run handler (Build.begin (running removing) deepFiles (planTo "rm".toList "d/e/o".toList))
        steps d ∧
      d.files = removedFiles ∧ ActsPlainly deepFiles steps ∧
      WritesOnlyOutput (running removing) deepFiles (planTo "rm".toList "d/e/o".toList) steps d := by
  have hprovision : deepFiles.provision "d/e/o".toList =
      (emptiedFiles, .ok ["w".toList, "d".toList, "e".toList, "o".toList]) := by cbv
  have hbegin : Build.begin (running removing) deepFiles (planTo "rm".toList "d/e/o".toList) = _ :=
    start_of_running hprovision rfl rfl _
  obtain ⟨e, hstep, hfiles⟩ : ∃ e,
      (Build.begin (running removing) deepFiles (planTo "rm".toList "d/e/o".toList)).step?
        handler .compilerActs = some e ∧ e.files = removedFiles := by
    rw [hbegin]
    exact ⟨_, rfl, rfl⟩
  have hstays : Stays deepFiles removedFiles := by
    have hemptied : emptiedFiles.HasNoLinks := FileTree.hasNoLinks_set noLinks_deepFiles (by simp) _
    exact ⟨fun item hitem => hemptied item (List.mem_filter.mp hitem).1, rfl⟩
  have hrun := Run.start.step .compilerActs hstep
  have hacts : ActsPlainly deepFiles ([] ++
      [⟨Build.begin (running removing) deepFiles (planTo "rm".toList "d/e/o".toList), .compilerActs,
        e⟩]) := by
    simpa [ActsPlainly, hfiles] using fun _ => hstays
  exact ⟨_, e, hrun, hfiles, hacts,
    ((writes_only_output (running removing) noLinks_deepFiles isRooted_deepFiles [] _).2 _
      (prepare_deepFiles rfl)).2 _ _ hrun⟩

/-! ## An output that cannot be provisioned -/

/-- The path of the file below, with slashes between the first two names. -/
def deepPath (n : Nat) : Path :=
  Folder.slashPath (n + 1) ++ "e/o".toList

/-- The path of its folder, from the root. -/
def deepWay (n : Nat) : Path :=
  ("/w/".toList ++ Folder.slashPath n) ++ '/' :: "e".toList

theorem isAbsolute_deepWay (n : Nat) : Path.isAbsolute (deepWay n) = true := rfl

theorem absolute_deepPath (n : Nat) :
    deepFiles.absolute (deepPath n) = deepWay n ++ '/' :: "o".toList := by
  have hslashes : Folder.slashPath (n + 1) = Folder.slashPath n ++ ['/'] := by
    rw [Folder.slashPath, List.replicate_succ', ← List.cons_append, ← Folder.slashPath]
  have hjoin : deepFiles.absolute (deepPath n) = "/w/".toList ++ deepPath n := rfl
  rw [hjoin, deepPath, hslashes, deepWay]
  simp

theorem wayTo_deepPath (n : Nat) : deepFiles.wayTo (deepPath n) = deepWay n := by
  have hname : Path.IsName "o".toList := (by decide : FileTree.CanName "o".toList).toIsName
  have hend : Path.dropIdleEnd (Path.names (deepWay n)) = Path.names (deepWay n) := by
    rw [deepWay, Path.names_append_slash rfl]
    exact Path.dropIdleEnd_concat (by decide)
  rw [FileTree.wayTo, absolute_deepPath]
  exact Path.parent_append_name (isAbsolute_deepWay n) hname hend

theorem byteLength_deepWay (n : Nat) : Text.byteLength (deepWay n) = n + 6 := by
  rw [deepWay, Text.byteLength_append, Text.byteLength_append, Folder.byteLength_slashPath]
  show 3 + (n + 1) + 2 = n + 6
  omega

theorem provision_deepPath {n : Nat} (h : FileTree.pathLimit < n + 6) :
    deepFiles.provision (deepPath n) = (deepFiles, .error FileError.nameTooLong.message) := by
  have hname : Path.fileName? (deepFiles.absolute (deepPath n)) = some "o".toList := by
    rw [absolute_deepPath]
    exact Path.fileName?_append_name (isAbsolute_deepWay n)
      (by decide : FileTree.CanName "o".toList).toIsName
  have hnul : (deepWay n).contains '\x00' = false := by
    simp [deepWay, Folder.slashPath]
  have hrefused : FileTree.refused? (deepWay n) = some .nameTooLong := by
    rw [FileTree.refused?, hnul, byteLength_deepWay, if_pos h]
    rfl
  rw [← wayTo_deepPath] at hrefused
  exact FileTree.provision_of_refused hname hrefused (by decide)

theorem readText_deepPath {n : Nat} (h : n + 5 ≤ FileTree.pathLimit) :
    deepFiles.readText (deepPath n) = .ok "old".toList := by
  have hsound : deepFiles.IsSound := by decide
  have hbelow : FileTree.FileBelow deepFiles ["w".toList, "d".toList] ["e".toList, "o".toList]
      [111, 108, 100] := .deeper (by decide) (.here (by decide))
  have hlocate : deepFiles.locate (Folder.slashPath (n + 1)) = .ok ["w".toList, "d".toList] :=
    Folder.locate_slashPath (by decide) (by decide) (by omega)
  have hjoin : Path.join (Folder.slashPath (n + 1)) (['/'].intercalate ["e".toList, "o".toList]) =
      deepPath n := Folder.join_slashPath (by decide) (Nat.succ_ne_zero n)
  have hlength : Text.byteLength (deepPath n) = n + 5 := by
    rw [deepPath, Text.byteLength_append, Folder.byteLength_slashPath]
    rfl
  have hread := (hbelow.readBytes_join_eq_ok_iff hsound hlocate (by decide)).mpr
    ⟨rfl, rfl, by rw [hjoin, hlength]; exact h⟩
  rw [hjoin] at hread
  rw [FileTree.readText, hread]
  decide

/-- Every text that a build leaves at its output is empty, or a program put it there, or it is a
bundle. -/
def LeavesOwnText : Prop :=
  ∀ host fs environment arguments plan steps d text, fs.HasNoLinks → fs.IsRooted →
    Build.prepare fs environment arguments = .ok plan →
    Run handler (Build.begin host fs plan) steps d →
    build host fs environment arguments = Build.resultOf d →
    d.files.textOf plan.compiler.outFile = .ok text →
      text = [] ∨
      (∃ s ∈ steps, s.event.IsAct ∧ s.after.files.textOf plan.compiler.outFile = .ok text) ∨
      ∃ content, IsBundleOf plan.bundle steps content text

/-- A build whose output cannot be provisioned is over at once. -/
theorem build_of_unprovisioned (host : Host) {fs : FileTree} {environment : Settings.Variables}
    {arguments : BuildArguments} {plan : Plan} {made : FileTree} {reason : String}
    (hprepare : Build.prepare fs environment arguments = .ok plan)
    (hprovision : fs.provision plan.compiler.outFile = (made, .error reason)) :
    (Build.begin host fs plan).files = made ∧
      build host fs environment arguments = Build.resultOf (Build.begin host fs plan) := by
  have hbegin : Build.begin host fs plan =
      { ready made (Build.initial plan) with driver := ⟨.failed (.watch reason), 0⟩ } :=
    start_of_unprovided hprovision _ _ _
  refine ⟨by rw [hbegin]; rfl, ?_⟩
  rw [build, hprepare]
  exact congrArg Build.resultOf (Clock.run_of_result _ _ (by rw [hbegin]; rfl))

/-- An output whose whole path is too long cannot be provisioned, and keeps the text that it held. -/
theorem not_leavesOwnText : ¬ LeavesOwnText := by
  intro hleaves
  obtain ⟨n, hlong, hshort⟩ : ∃ n, FileTree.pathLimit < n + 6 ∧ n + 5 ≤ FileTree.pathLimit :=
    ⟨4090, by decide, by decide⟩
  have hcheck : (settingsTo "tsc".toList (deepPath n)).check = .ok () := rfl
  have hprepare := prepare_deepFiles hcheck
  obtain ⟨hfiles, hbuild⟩ :=
    build_of_unprovisioned (running removing) hprepare (provision_deepPath hlong)
  have htext := FileTree.textOf_of_readText (readText_deepPath hshort)
  rw [← hfiles] at htext
  have hcases := hleaves _ _ _ _ _ [] _ _ noLinks_deepFiles isRooted_deepFiles hprepare .start hbuild
    htext
  rcases hcases with hempty | hemitted | hbundled
  · exact absurd hempty (by decide)
  · obtain ⟨s, hs, -⟩ := hemitted
    cases hs
  · obtain ⟨content, s, hs, -⟩ := hbundled
    cases hs

end Compilation

end AmdBundle
