import AmdBundle.Proofs.Build.Writing
import AmdBundle.Proofs.Compilation.Accounts
import AmdBundle.Proofs.FileTree.Write
import AmdBundle.Proofs.Lists
import Mathlib

/-!
# Builds of one file

A build whose only file is its output, step by step: its compiler writes texts, one after the other,
and ends.

* `Scene` : where such a build stands; `Scene.compilation`;
* `Shows` : what happened along some of its steps;
* `Scene.emits`, `Scene.notices`, `Scene.hands`, `Scene.bundles`, `Scene.writes`, `Scene.ends` : how it
  goes on;
* `Scene.exists_succeeds` : a build that gets through all its work succeeds.
-/

set_option autoImplicit false

namespace AmdBundle.Compilation
open Build (handler)

/-! ## One file -/

def outputPlace : Location :=
  ["out.js".toList]

def oneFile (text : Text) : FileTree where
  entries := [(outputPlace, .file (Text.encode text))]
  current := []

theorem placeOf_oneFile (text : Text) : (oneFile text).placeOf outputPath = .ok outputPlace := by
  cbv

theorem writeFile_oneFile (old new : Text) :
    (oneFile old).writeFile outputPath (Text.encode new) = .ok (oneFile new) := by
  rw [FileTree.writeFile, placeOf_oneFile]
  rfl

theorem readText_oneFile (text : Text) : (oneFile text).readText outputPath = .ok text := by
  have hbytes : (oneFile text).readBytes outputPath = .ok (Text.encode text) :=
    FileTree.readBytes_of_name "out.js".toList (by decide) rfl (by decide)
      ⟨by decide, by decide, by decide⟩ (by decide) rfl rfl
  rw [FileTree.readText, hbytes, Outcome.bind_ok, FileTree.asText_encode]

/-! ## Scenes -/

structure Scene where
  text : Text
  unheard : Nat
  compiler : Activity
  debouncer : Debouncer
  contents : List Text
  driver : Driver
  isHandling : Bool
  writer : Writer

namespace Scene

def compilation (s : Scene) : Compilation BuildState where
  files := oneFile s.text
  watched := some outputPlace
  isReported := true
  compiler := s.compiler
  others := []
  printed := []
  normal := .start
  errors := .start
  lines := []
  unheard := s.unheard
  debouncer := s.debouncer
  contents := s.contents
  driver := s.driver
  isHandling := s.isHandling
  kept := ⟨s.writer, []⟩

@[simp] theorem outputText?_compilation (s : Scene) : s.compilation.outputText? = some s.text := by
  have hpath : FileTree.pathOf outputPlace = outputPath := by decide
  simp [outputText?, compilation, hpath, readText_oneFile, Except.toOption]

theorem holdsText (s : Scene) : HoldsText outputPath s.compilation :=
  ⟨s.text, s.outputText?_compilation, readText_oneFile s.text⟩

end Scene

/-- What happened along some steps, all of which are steady. -/
structure Shows (steps : List (Step BuildState)) (emitted noticed handed bundled : List Text) :
    Prop where
  emitted : steps.filterMap Step.emitted? = emitted
  noticed : steps.filterMap Step.noticed? = noticed
  handed : steps.filterMap Step.handed? = handed
  bundled : steps.filterMap Step.bundled? = bundled
  isSteady : ∀ s ∈ steps, IsSteady outputPath s

theorem Shows.append {steps more : List (Step BuildState)}
    {emitted noticed handed bundled emitted' noticed' handed' bundled' : List Text}
    (h : Shows steps emitted noticed handed bundled)
    (h' : Shows more emitted' noticed' handed' bundled') :
    Shows (steps ++ more) (emitted ++ emitted') (noticed ++ noticed') (handed ++ handed')
      (bundled ++ bundled') := by
  refine ⟨?_, ?_, ?_, ?_, List.forall_mem_append.mpr ⟨h.isSteady, h'.isSteady⟩⟩
  · rw [List.filterMap_append, h.emitted, h'.emitted]
  · rw [List.filterMap_append, h.noticed, h'.noticed]
  · rw [List.filterMap_append, h.handed, h'.handed]
  · rw [List.filterMap_append, h.bundled, h'.bundled]

theorem Shows.ofStep {step : Step BuildState} (hsteady : IsSteady outputPath step) :
    Shows [step] step.emitted?.toList step.noticed?.toList step.handed?.toList
      step.bundled?.toList :=
  ⟨Lists.filterMap_concat _ [] step, Lists.filterMap_concat _ [] step,
    Lists.filterMap_concat _ [] step, Lists.filterMap_concat _ [] step, by simpa using hsteady⟩

namespace Scene

/-- One scene leads to another, and that much happens on the way. -/
def Leads (s e : Scene) (emitted noticed handed bundled : List Text) : Prop :=
  ∃ steps, Run handler s.compilation steps e.compilation ∧
    Shows steps emitted noticed handed bundled

theorem Leads.trans {s m e : Scene}
    {emitted noticed handed bundled emitted' noticed' handed' bundled' : List Text}
    (h : s.Leads m emitted noticed handed bundled)
    (h' : m.Leads e emitted' noticed' handed' bundled') :
    s.Leads e (emitted ++ emitted') (noticed ++ noticed') (handed ++ handed')
      (bundled ++ bundled') := by
  obtain ⟨steps, hrun, hshows⟩ := h
  obtain ⟨more, hrun', hshows'⟩ := h'
  exact ⟨steps ++ more, hrun.append hrun', hshows.append hshows'⟩

theorem leads_of_step (s e : Scene) (event : Event) (hopen : s.driver.result? = none)
    (hstep : s.compilation.step? handler event = some e.compilation) :
    s.Leads e (Step.emitted? ⟨s.compilation, event, e.compilation⟩).toList
      (Step.noticed? ⟨s.compilation, event, e.compilation⟩).toList
      (Step.handed? ⟨s.compilation, event, e.compilation⟩).toList
      (Step.bundled? ⟨s.compilation, event, e.compilation⟩).toList :=
  ⟨_, Run.start.step event hstep, .ofStep ⟨hopen, s.holdsText, fun _ => e.holdsText⟩⟩

variable {s : Scene}

/-- The files change to another text, of which the debouncer may have to hear. -/
theorem setFiles_compilation (s : Scene) (text : Text) : ∃ n,
    s.compilation.setFiles (oneFile text) = ({ s with text, unheard := n } : Scene).compilation :=
  ⟨_, rfl⟩

/-- The compiler writes another text. -/
theorem emits {text : Text} {next : Activity} (hcompiler : s.compiler = writing outputPath text next)
    (htext : text ≠ s.text) (hopen : s.driver.result? = none) :
    ∃ n, s.Leads { s with text, unheard := n, compiler := next } [text] [] [] [] := by
  have hact : s.compilation.compiler.act s.compilation.files s.compilation.isHeard =
      some ⟨next, oneFile text, none, none⟩ := by
    show s.compiler.act _ _ = _
    rw [hcompiler]
    simp [writing, Activity.act, compilation, writeFile_oneFile, Except.toOption]
  obtain ⟨n, hn⟩ := s.setFiles_compilation text
  have hstep : s.compilation.step? handler .compilerActs =
      some ({ s with text, unheard := n, compiler := next } : Scene).compilation := by
    rw [step?, hact, Option.map_some, takeEffect, hn]
    rfl
  refine ⟨n, ?_⟩
  simpa [Step.emitted?, htext, Step.noticed?, Step.handed?, Step.bundled?] using
    leads_of_step s _ .compilerActs hopen hstep

/-- The debouncer hears of the text, reads it and sends it. -/
theorem notices {last : Text} (hdebouncer : s.debouncer = ⟨.waiting, last⟩) (htext : s.text ≠ last)
    (hcontents : s.contents = []) (hopen : s.driver.result? = none) :
    s.Leads { s with debouncer := ⟨.waiting, s.text⟩, contents := [s.text] } [] [s.text] [] [] := by
  obtain ⟨text, unheard, compiler, debouncer, contents, driver, isHandling, writer⟩ := s
  subst hdebouncer hcontents
  let scene (unheard : Nat) (debouncer : Debouncer) (contents : List Text) : Scene :=
    ⟨text, unheard, compiler, debouncer, contents, driver, isHandling, writer⟩
  have hstir := leads_of_step (scene unheard ⟨.waiting, last⟩ [])
    (scene (unheard + 1) ⟨.waiting, last⟩ []) .stir hopen rfl
  have hhear := leads_of_step (scene (unheard + 1) ⟨.waiting, last⟩ [])
    (scene unheard ⟨.quieting, last⟩ []) .hear hopen rfl
  have hquiet := leads_of_step (scene unheard ⟨.quieting, last⟩ [])
    (scene unheard ⟨.reading, last⟩ []) .quiet hopen rfl
  have hread := leads_of_step (scene unheard ⟨.reading, last⟩ [])
    (scene unheard ⟨.sending text, text⟩ []) .read hopen (by
      rw [step?, outputText?_compilation, debounce]
      simp [scene, compilation, Debouncer.step?, Debouncer.receive, show ¬ text = last from htext])
  have hsend := leads_of_step (scene unheard ⟨.sending text, text⟩ [])
    (scene unheard ⟨.waiting, text⟩ [text]) .send hopen rfl
  exact (((hstir.trans hhear).trans hquiet).trans hread).trans hsend

/-- The driver hands a content over that is no bundle, and the writer takes it. -/
theorem hands {content : Text} (hcontents : s.contents = [content]) (hplain : isBundle content = false)
    (hphase : s.driver.phase = .running) (hidle : s.isHandling = false) :
    s.Leads
      { s with
        contents := [], isHandling := true, writer := { s.writer with task := .bundling content } }
      [] [] [content] [] := by
  have hopen : s.driver.result? = none := by simp [Driver.result?, hphase]
  have hstep : s.compilation.step? handler .content = some ({ s with
      contents := [], isHandling := true, writer := { s.writer with task := .bundling content } } :
        Scene).compilation := by
    simp [step?, handContent, compilation, hcontents, drive, hidle, Driver.step?, hphase, handler,
      Writer.take, hplain]
  simpa [Step.emitted?, Step.noticed?, Step.handed?, Step.bundled?, compilation, hcontents] using
    leads_of_step s _ .content hopen hstep

/-- The writer goes on. -/
theorem step_handle {writer : Writer} {text : Text} (hhandling : s.isHandling = true)
    (hwork : s.writer.work (oneFile s.text) = .more writer (oneFile text)) :
    ∃ n, s.compilation.step? handler .handle =
      some ({ s with text, unheard := n, writer } : Scene).compilation := by
  obtain ⟨n, hn⟩ := s.setFiles_compilation text
  have hhandler : handler.work s.compilation.kept s.compilation.files =
      .more ⟨writer, []⟩ (oneFile text) :=
    Progress.map_eq_more_iff.mpr ⟨writer, hwork, rfl⟩
  refine ⟨n, ?_⟩
  rw [step?, goOn, if_pos (show s.compilation.isHandling = true from hhandling), hhandler]
  simp only [hn]
  rfl

theorem bundles {content out : Text} (htask : s.writer.task = .bundling content)
    (hbundle : bundle (oneFile s.text) s.writer.options content = some (.ok out))
    (hhandling : s.isHandling = true) (hopen : s.driver.result? = none) :
    ∃ n, s.Leads { s with unheard := n, writer := { s.writer with task := .writing out } }
      [] [] [] [content] := by
  obtain ⟨n, hstep⟩ := step_handle hhandling (Writer.work_of_bundling htask hbundle)
  refine ⟨n, ?_⟩
  simpa [Step.emitted?, Step.noticed?, Step.handed?, Step.bundled?, compilation, htask,
    Writer.Task.content?] using leads_of_step s _ .handle hopen hstep

/-- The writer writes a bundle, and the driver goes on. -/
theorem writes {out : Text} (htask : s.writer.task = .writing out)
    (hfile : s.writer.outFile = outputPath) (hhandling : s.isHandling = true)
    (hphase : s.driver.phase = .running) :
    ∃ n, s.Leads
      { s with
        text := out, unheard := n, isHandling := false, driver := ⟨.running, s.driver.contents + 1⟩,
        writer := { s.writer with
          task := .idle, bundles := s.writer.bundles + 1, lastError := none } } [] [] [] [] := by
  have hopen : s.driver.result? = none := by simp [Driver.result?, hphase]
  obtain ⟨n, hstep⟩ := step_handle hhandling
    (Writer.work_of_writing htask (hfile ▸ writeFile_oneFile s.text out))
  refine ⟨n, ?_⟩
  have hwrite := leads_of_step s _ .handle hopen hstep
  have hthrough := leads_of_step
    { s with
      text := out, unheard := n,
      writer := { s.writer with task := .idle, bundles := s.writer.bundles + 1, lastError := none } }
    { s with
      text := out, unheard := n, isHandling := false, driver := ⟨.running, s.driver.contents + 1⟩,
      writer := { s.writer with task := .idle, bundles := s.writer.bundles + 1, lastError := none } }
    .handle hopen (by
      simp [step?, goOn, handler, compilation, Writer.work, Progress.map, drive, Driver.step?, hhandling, hphase,
        Driver.result?])
  simpa [Step.emitted?, Step.noticed?, Step.handed?, Step.bundled?, compilation, htask,
    Writer.Task.content?] using hwrite.trans hthrough

/-- The compiler ends well, and the driver is through. -/
theorem ends (hcompiler : s.compiler = .ended (.code 0)) (hphase : s.driver.phase = .running)
    (hidle : s.isHandling = false) (hcontents : s.driver.contents ≠ 0) :
    ∃ steps d, Run handler s.compilation steps d ∧ Shows steps [] [] [] [] ∧
      d.driver.result? = some (.ok ⟨s.driver.contents, false⟩) ∧ d.files = oneFile s.text ∧
      d.kept.writer = s.writer := by
  have hopen : s.driver.result? = none := by simp [Driver.result?, hphase]
  let drained : Scene := { s with driver := ⟨.draining (.code 0), s.driver.contents⟩ }
  obtain ⟨steps, hrun, hshows⟩ := leads_of_step s drained .exit hopen (by
    simp [drained, step?, compilation, hcompiler, Activity.status?, drive, hidle, Driver.step?,
      hphase, Driver.result?])
  obtain ⟨d, hstep, hd⟩ : ∃ d, drained.compilation.step? handler .drained = some d ∧
      d = { drained.compilation with
        watched := none, driver := ⟨.succeeded ⟨s.driver.contents, false⟩, s.driver.contents⟩ } := by
    simp [drained, step?, compilation, drive, hidle, Driver.step?, Driver.afterExit, hcontents,
      ExitStatus.isSuccess, Driver.result?]
  have hsteady : IsSteady outputPath ⟨drained.compilation, .drained, d⟩ :=
    ⟨rfl, drained.holdsText, fun hnone => by simp [hd, Driver.result?] at hnone⟩
  exact ⟨_, d, hrun.step .drained hstep, hshows.append (.ofStep hsteady), by simp [hd, Driver.result?],
    by simp [hd, compilation, drained], by simp [hd, compilation, drained]⟩

/-! ## Whole builds -/

theorem provision_bare : bareFiles.provision outputPath = (oneFile [], .ok outputPlace) := by
  cbv

/-- The scene at the start of a build. -/
def first (compiler : Activity) (options : BundleOptions) : Scene :=
  ⟨[], 0, compiler, .start, [], ⟨.running, 0⟩, false, .start outputPath options⟩

theorem start_eq_first (compiler : Activity) (options : BundleOptions) :
    start (running compiler) bareFiles compilerCall outputPath ⟨.start outputPath options, []⟩ =
      (first compiler options).compilation := by
  rw [start_of_running provision_bare rfl rfl]
  rfl

variable {options : BundleOptions} {text out : Text} {next : Activity}

/-- The scene in which the first text of a compiler is handled. -/
def handling (text : Text) (unheard : Nat) (next : Activity) (options : BundleOptions)
    (task : Writer.Task) : Scene :=
  ⟨text, unheard, next, ⟨.waiting, text⟩, [], ⟨.running, 0⟩, true, ⟨outputPath, options, 0, none, task⟩⟩

/-- The scene behind that. -/
def handled (text out : Text) (unheard : Nat) (next : Activity) (options : BundleOptions) : Scene :=
  ⟨out, unheard, next, ⟨.waiting, text⟩, [], ⟨.running, 1⟩, false, ⟨outputPath, options, 1, none, .idle⟩⟩

/-- The compiler writes a text, and its bundle is made. -/
theorem first_bundled (next : Activity) (htext : text ≠ []) (hplain : isBundle text = false)
    (hbundle : bundle (oneFile text) options text = some (.ok out)) :
    ∃ n, (first (writing outputPath text next) options).Leads
      (handling text n next options (.writing out)) [text] [text] [text] [text] := by
  obtain ⟨n, hemits⟩ := emits (s := first (writing outputPath text next) options) rfl htext rfl
  have hnotices := hemits.trans (notices rfl htext rfl rfl)
  have hhands : (first (writing outputPath text next) options).Leads
      (handling text n next options (.bundling text)) [text] [text] [text] [] :=
    hnotices.trans (hands rfl hplain rfl rfl)
  obtain ⟨m, hbundles⟩ := bundles (s := handling text n next options (.bundling text)) rfl hbundle rfl
    rfl
  exact ⟨m, hhands.trans hbundles⟩

/-- The bundle is written over whatever stands there. -/
theorem handling_written (text out current : Text) (n : Nat) (next : Activity)
    (options : BundleOptions) :
    ∃ m, Leads { handling text n next options (.writing out) with text := current }
      (handled text out m next options) [] [] [] [] :=
  writes (s := { handling text n next options (.writing out) with text := current }) rfl rfl rfl rfl

/-- A build from its start: what happens, how often content was handed over, and what it leaves. -/
structure Succeeds (compiler : Activity) (options : BundleOptions) (emitted noticed : List Text)
    (left : Text) (steps : List (Step BuildState)) (d : Compilation BuildState) : Prop where
  run : Run handler
    (start (running compiler) bareFiles compilerCall outputPath ⟨.start outputPath options, []⟩) steps d
  shows : Shows steps emitted noticed noticed noticed
  result : d.driver.result? = some (.ok ⟨noticed.length, false⟩)
  files : d.files = oneFile left
  lastError : d.kept.writer.lastError = none

/-- A scene in which all work is done and the compiler has ended is the end of a build. -/
theorem exists_succeeds {compiler : Activity} {s : Scene} {emitted noticed : List Text}
    (hleads : (first compiler options).Leads s emitted noticed noticed noticed)
    (hcompiler : s.compiler = .ended (.code 0)) (hdriver : s.driver = ⟨.running, noticed.length⟩)
    (hidle : s.isHandling = false) (hne : noticed ≠ []) (herror : s.writer.lastError = none) :
    ∃ steps d, Succeeds compiler options emitted noticed s.text steps d := by
  have hcount : s.driver.contents = noticed.length := by rw [hdriver]
  have hcontents : s.driver.contents ≠ 0 := by simp [hcount, hne]
  obtain ⟨front, hrun, hshows⟩ := hleads
  obtain ⟨back, d, hends, hrest, hresult, hfiles, hwriter⟩ :=
    ends hcompiler (by rw [hdriver]) hidle hcontents
  refine ⟨front ++ back, d, (start_eq_first _ _).symm ▸ hrun.append hends, ?_, hcount ▸ hresult,
    hfiles, by rw [hwriter, herror]⟩
  simpa using hshows.append hrest

/-- A build of a compiler that writes one text. -/
theorem exists_succeeds_once (htext : text ≠ []) (hplain : isBundle text = false)
    (hbundle : bundle (oneFile text) options text = some (.ok out)) :
    ∃ steps d, Succeeds (writing outputPath text (.ended (.code 0))) options [text] [text] out steps
      d := by
  obtain ⟨n, hbundled⟩ := first_bundled (.ended (.code 0)) htext hplain hbundle
  obtain ⟨m, hwritten⟩ := handling_written text out text n (.ended (.code 0)) options
  exact exists_succeeds (hbundled.trans hwritten) rfl rfl rfl (by simp) rfl

variable {other : Text}

/-- The compiler writes another text behind the bundle of the first one, and ends before that is
read. -/
theorem exists_succeeds_unread (htext : text ≠ []) (hplain : isBundle text = false)
    (hbundle : bundle (oneFile text) options text = some (.ok out)) (hother : other ≠ out) :
    ∃ steps d, Succeeds (writing outputPath text (writing outputPath other (.ended (.code 0)))) options
      [text, other] [text] other steps d := by
  obtain ⟨n, hbundled⟩ := first_bundled (writing outputPath other (.ended (.code 0))) htext hplain
    hbundle
  obtain ⟨m, hwritten⟩ := handling_written text out text n _ options
  obtain ⟨k, hemits⟩ := emits (s := handled text out m _ options) rfl hother rfl
  exact exists_succeeds ((hbundled.trans hwritten).trans hemits) rfl rfl rfl (by simp) rfl

/-- The compiler writes another text while the bundle of the first one is made. -/
theorem exists_succeeds_overwritten (htext : text ≠ []) (hplain : isBundle text = false)
    (hbundle : bundle (oneFile text) options text = some (.ok out)) (hother : other ≠ text) :
    ∃ steps d, Succeeds (writing outputPath text (writing outputPath other (.ended (.code 0)))) options
      [text, other] [text] out steps d := by
  obtain ⟨n, hbundled⟩ := first_bundled (writing outputPath other (.ended (.code 0))) htext hplain
    hbundle
  obtain ⟨k, hemits⟩ := emits (s := handling text n _ options (.writing out)) rfl hother rfl
  obtain ⟨m, hwritten⟩ := handling_written text out other k (.ended (.code 0)) options
  exact exists_succeeds ((hbundled.trans hemits).trans hwritten) rfl rfl rfl (by simp) rfl

/-! ## Two modules -/

def firstModule : Text :=
  "define(\"m\", [], function () \x7b\n\x7d);\n".toList

def secondModule : Text :=
  "define(\"n\", [], function () \x7b\n\x7d);\n".toList

theorem exists_bundle_firstModule :
    ∃ out, bundle (oneFile firstModule) .default firstModule = some (.ok out) :=
  Outcome.exists_eq_some_ok (by decide +kernel)

theorem exists_bundle_secondModule :
    ∃ out, bundle (oneFile secondModule) .default secondModule = some (.ok out) :=
  Outcome.exists_eq_some_ok (by decide +kernel)

end Scene
end AmdBundle.Compilation
