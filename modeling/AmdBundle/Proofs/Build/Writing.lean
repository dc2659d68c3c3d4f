import AmdBundle.Build
import AmdBundle.Proofs.Compilation.Run
import AmdBundle.Proofs.Watch.Debouncer

/-!
# What a writer does in a build

A writer is told contents, bundles them and writes the bundles, one after the other. Programs change
the files meanwhile, and the debouncer reads what stands at the output.

* `Writer.Work` : all that a writer does next; `Writer.work_of_more`; `Writer.work_eq_done_iff` : when
  it does nothing;
* `Step.bundled?`, `Step.written?` : what a writer bundled and wrote in a step;
* `Turn` : what a step means for the writer; `Change.turn`;
* `IsSteady` : a step before and behind which the output holds a text.
-/

set_option autoImplicit false

namespace AmdBundle

/-! ## Progress -/

namespace Progress
variable {η θ : Type} {f : η → θ} {p : Progress η}

theorem map_eq_more_iff {kept : θ} {files : FileTree} :
    p.map f = .more kept files ↔ ∃ a, p = .more a files ∧ f a = kept := by
  cases p <;> simp [map, eq_comm, and_comm]

theorem map_eq_done_iff : p.map f = .done ↔ p = .done := by
  cases p <;> simp [map]

end Progress

/-! ## Writers -/

namespace Writer

/-- What a writer does next. -/
inductive Work (w : Writer) (fs : FileTree) : Writer → FileTree → Prop where
  | bundles {content out : Text} (htask : w.task = .bundling content)
      (hbundle : bundle fs w.options content = some (.ok out)) :
      Work w fs { w with task := .writing out } fs
  | misses {content : Text} {e : BundleError} (htask : w.task = .bundling content)
      (hbundle : bundle fs w.options content = some (.error e)) : Work w fs (w.fail (.bundle e)) fs
  | writes {out : Text} {written : FileTree} (htask : w.task = .writing out)
      (hwrite : fs.writeFile w.outFile (Text.encode out) = .ok written) :
      Work w fs { w with task := .idle, bundles := w.bundles + 1, lastError := none } written
  | gaveUp {out : Text} {e : FileError} (htask : w.task = .writing out)
      (hwrite : fs.writeFile w.outFile (Text.encode out) = .error e) :
      Work w fs (w.fail (unwritable e)) fs

variable {w : Writer} {fs : FileTree} {content out : Text}

theorem work_of_more {w' : Writer} {fs' : FileTree} (h : w.work fs = .more w' fs') :
    Work w fs w' fs' := by
  rw [work] at h
  split at h
  · cases h
  · next content htask =>
    split at h
    · cases h
    · next out hbundle =>
      cases h
      exact .bundles htask hbundle
    · next e hbundle =>
      cases h
      exact .misses htask hbundle
  · next out htask =>
    split at h
    · next written hwrite =>
      cases h
      exact .writes htask hwrite
    · next e hwrite =>
      cases h
      exact .gaveUp htask hwrite

theorem work_eq_done_iff : w.work fs = .done ↔ w.task = .idle := by
  rw [work]
  split
  · next htask => simp [htask]
  · next content htask => split <;> simp [htask]
  · next out htask => split <;> simp [htask]

theorem work_of_bundling (htask : w.task = .bundling content)
    (hbundle : bundle fs w.options content = some (.ok out)) :
    w.work fs = .more { w with task := .writing out } fs := by
  simp only [work, htask, hbundle]

theorem work_of_writing {written : FileTree} (htask : w.task = .writing out)
    (hwrite : fs.writeFile w.outFile (Text.encode out) = .ok written) :
    w.work fs =
      .more { w with task := .idle, bundles := w.bundles + 1, lastError := none } written := by
  simp only [work, htask, hwrite]

/-- The content that is going to be bundled. -/
def Task.content? : Task → Option Text
  | .bundling content => some content
  | _ => none

/-- The bundle that is going to be written. -/
def Task.out? : Task → Option Text
  | .writing out => some out
  | _ => none

end Writer

/-! ## One step -/

namespace Compilation
open Build (handler)

/-- The content that the writer bundled. -/
def Step.bundled? (s : Step BuildState) : Option Text :=
  match s.event with
  | .handle => s.before.kept.writer.task.content?
  | _ => none

/-- The bundle that the writer wrote. -/
def Step.written? (s : Step BuildState) : Option Text :=
  match s.event with
  | .handle => s.before.kept.writer.task.out?
  | _ => none

/-- Is the text not known as a bundle? -/
def isPlain (text : Text) : Bool :=
  !isBundle text

variable {c d e : Compilation BuildState} {event : Event}

theorem work_of_handler {b b' : BuildState} {files files' : FileTree}
    (h : handler.work b files = .more b' files') :
    ∃ writer, b' = { b with writer } ∧ Writer.Work b.writer files writer files' := by
  obtain ⟨writer, hwork, rfl⟩ := Progress.map_eq_more_iff.mp h
  exact ⟨writer, rfl, Writer.work_of_more hwork⟩

theorem idle_of_handler {b : BuildState} {files : FileTree} (h : handler.work b files = .done) :
    b.writer.task = .idle :=
  Writer.work_eq_done_iff.mp (Progress.map_eq_done_iff.mp h)

/-! ## What a step means for the writer -/

/-- A step as the writer sees it: the files change, a text is noticed, a content is handed over, the
writer goes on, or none of these. -/
inductive Turn (c : Compilation BuildState) (event : Event) (e : Compilation BuildState) : Prop where
  | acts (hevent : event.IsAct) (hwriter : e.kept.writer = c.kept.writer)
  | reads (hevent : event = .read) (hfiles : e.files = c.files)
      (hwriter : e.kept.writer = c.kept.writer)
      (hnoticed : ∀ text, Step.noticed? ⟨c, event, e⟩ = some text → c.outputText? = some text)
      (houtput : e.outputText? = c.outputText?)
  | takes (content : Text) (hevent : event = .content) (hfiles : e.files = c.files)
      (hidle : c.isHandling = false) (hwriter : e.kept.writer = c.kept.writer.take content)
      (houtput : e.outputText? = c.outputText?)
  | works {writer : Writer} {files : FileTree} (hevent : event = .handle)
      (hwriter : e.kept.writer = writer) (hfiles : e.files = files)
      (hwork : Writer.Work c.kept.writer c.files writer files)
  | rests (hfiles : e.files = c.files) (hwriter : e.kept.writer = c.kept.writer)
      (hnoticed : Step.noticed? ⟨c, event, e⟩ = none)
      (hbundled : Step.bundled? ⟨c, event, e⟩ = none)
      (houtput : ∀ text, e.outputText? = some text → c.outputText? = some text)

theorem outputText?_watchedBy {driver : Driver} (he : e.watched = watchedBy driver c.watched)
    (hfiles : e.files = c.files) (text : Text) (h : e.outputText? = some text) :
    c.outputText? = some text := by
  rw [outputText?, he, hfiles, watchedBy] at h
  split at h
  · cases h
  · exact h

theorem Change.turn (hc : Change handler c event e) : Turn c event e := by
  cases hc with
  | acts hevent => exact .acts hevent rfl
  | aside hevent => cases hevent <;> exact .rests rfl rfl rfl rfl fun _ h => h
  | debounces hevent _ hstep =>
    cases hevent with
    | read =>
      exact .reads rfl rfl rfl (fun _ => Debouncer.eq_some_of_read hstep) rfl
    | hear => exact .rests rfl rfl rfl rfl fun _ h => h
    | quiet => exact .rests rfl rfl rfl rfl fun _ h => h
  | sends => exact .rests rfl rfl rfl rfl fun _ h => h
  | hands _ hidle => exact .takes _ rfl rfl hidle rfl rfl
  | works _ hwork =>
    obtain ⟨writer, rfl, hdone⟩ := work_of_handler hwork
    exact .works rfl rfl rfl hdone
  | isThrough _ hwork =>
    have hbundled : c.kept.writer.task.content? = none := by
      rw [idle_of_handler hwork]
      rfl
    exact .rests rfl rfl rfl hbundled (outputText?_watchedBy rfl rfl)
  | tells => exact .rests rfl rfl rfl rfl (outputText?_watchedBy rfl rfl)
  | drives hevent =>
    cases hevent <;> exact .rests rfl rfl rfl rfl (outputText?_watchedBy rfl rfl)

theorem Change.driver_of_isAct (hc : Change handler c event e) (hevent : event.IsAct) :
    e.driver = c.driver := by
  cases hc with
  | isThrough => cases hevent
  | tells => cases hevent
  | drives hdrives => cases hdrives <;> cases hevent
  | _ => rfl

/-! ## Acts of programs -/

theorem bundled?_of_isAct (hevent : event.IsAct) : Step.bundled? ⟨c, event, e⟩ = none := by
  cases hevent <;> rfl

theorem noticed?_of_isAct (hevent : event.IsAct) : Step.noticed? ⟨c, event, e⟩ = none := by
  cases hevent <;> rfl

theorem emitted?_of_isAct (hevent : event.IsAct) : Step.emitted? ⟨c, event, e⟩ =
    if e.outputText? = c.outputText? then none else e.outputText? := by
  cases hevent <;> rfl

/-! ## Steady outputs -/

/-- The output holds a text, at its path as well as where it is watched. -/
def HoldsText (outFile : Path) (c : Compilation BuildState) : Prop :=
  ∃ text, c.outputText? = some text ∧ c.files.readText outFile = .ok text

/-- The driver is not through before the step, and the output holds a text before and behind it,
unless the driver is through by then. -/
structure IsSteady (outFile : Path) (s : Step BuildState) : Prop where
  isOpen : s.before.driver.result? = none
  before : HoldsText outFile s.before
  after : s.after.driver.result? = none → HoldsText outFile s.after

end Compilation
end AmdBundle
