import AmdBundle.Proofs.Build.Scene
import AmdBundle.Proofs.Build.Writing
import AmdBundle.Proofs.Bundle.Marked
import AmdBundle.Proofs.Compilation.Accounts
import AmdBundle.Proofs.FileTree.Write

/-!
# No bundle is bundled again

The writer of a build changes the file of which it is told. What it wrote is known by its marker, so
every content that it bundles was read after a program wrote it, and each of them after a write of its
own.

* `fresh` : what a debouncer has still to notice; `Change.fresh` : what one step preserves;
* `Feeds` : what holds all along a build; `Run.feeds`;
* `no_feedback` : no bundle is bundled again, and there are no more bundles than writes.
-/

set_option autoImplicit false

namespace AmdBundle

namespace Compilation
open Build (handler)

variable {c d e : Compilation BuildState} {event : Event}

/-- A writer has nothing to do unless the driver waits for it. -/
def IsIdle (c : Compilation BuildState) : Prop :=
  c.isHandling = false → c.kept.writer.task = .idle

theorem Change.isIdle (hc : Change handler c event e) (hidle : c.IsIdle) : e.IsIdle := by
  cases hc with
  | acts => exact hidle
  | aside => exact hidle
  | debounces => exact hidle
  | sends => exact hidle
  | hands => exact nofun
  | works hhandling => exact fun hnot => by simp [hhandling] at hnot
  | isThrough _ hwork => exact fun _ => idle_of_handler hwork
  | tells => exact hidle
  | drives => exact hidle

/-- What is handed over and is no bundle is bundled next. -/
theorem Change.bundled (hc : Change handler c event e) (hidle : c.IsIdle) :
    (Step.bundled? ⟨c, event, e⟩).toList ++ e.kept.writer.task.content?.toList =
      c.kept.writer.task.content?.toList ++
        (Step.handed? ⟨c, event, e⟩).toList.filter isPlain := by
  cases hc with
  | acts hevent => cases hevent <;> simp [Step.bundled?, Step.handed?]
  | aside hevent => cases hevent <;> simp [Step.bundled?, Step.handed?]
  | debounces hevent => cases hevent <;> simp [Step.bundled?, Step.handed?]
  | sends => simp [Step.bundled?, Step.handed?]
  | @hands content _ _ hcontents hnot =>
    cases hbundle : isBundle content <;>
      simp [Step.bundled?, Step.handed?, hcontents, handler, Writer.take, hidle hnot, isPlain,
        Writer.Task.content?, hbundle]
  | works _ hwork =>
    obtain ⟨writer, rfl, hdone⟩ := work_of_handler hwork
    cases hdone <;>
      simp_all [Step.bundled?, Step.handed?, Writer.Task.content?, Writer.fail]
  | isThrough _ hwork =>
    simp [Step.bundled?, Step.handed?, idle_of_handler hwork, Writer.Task.content?]
  | tells => simp [Step.bundled?, Step.handed?, handler]
  | drives hevent => cases hevent <;> simp [Step.bundled?, Step.handed?]

/-- What the writer is going to write is known as a bundle. -/
def IsMarked (c : Compilation BuildState) : Prop :=
  ∀ out, c.kept.writer.task = .writing out → isBundle out = true

theorem Change.isMarked (hc : Change handler c event e) (hmarked : c.IsMarked) : e.IsMarked := by
  cases hc with
  | acts => exact hmarked
  | aside => exact hmarked
  | debounces => exact hmarked
  | sends => exact hmarked
  | @hands content =>
    intro out hout
    cases hbundle : isBundle content with
    | false => simp [handler, Writer.take, hbundle] at hout
    | true => exact hmarked out (by simpa [handler, Writer.take, hbundle] using hout)
  | works _ hwork =>
    obtain ⟨writer, rfl, hdone⟩ := work_of_handler hwork
    intro out hout
    cases hdone with
    | bundles _ hbundle =>
      obtain rfl := Writer.Task.writing.inj hout
      exact isBundle_of_bundle hbundle
    | _ => cases hout
  | isThrough => exact hmarked
  | tells => exact hmarked
  | drives => exact hmarked

/-! ### What is still to be noticed -/

/-- The text of the output, unless it is known as a bundle or was read last. -/
def fresh (c : Compilation BuildState) : List Text :=
  c.outputText?.toList.filter fun text => isPlain text && decide (text ≠ c.debouncer.lastSeen)

/-- The output after a text was written to any file. -/
theorem outputText?_of_writeFile {written : FileTree} {p : Path} {out : Text}
    (hwrite : c.files.writeFile p (Text.encode out) = .ok written)
    (he : e.files = written ∧ e.watched = c.watched) :
    e.outputText? = c.outputText? ∨ e.outputText? = some out := by
  rw [outputText?, outputText?, he.1, he.2]
  cases c.watched with
  | none => exact .inl rfl
  | some loc => exact FileTree.readText_writeFile hwrite (FileTree.pathOf loc)

theorem fresh_congr (houtput : e.outputText? = c.outputText?)
    (hlast : e.debouncer.lastSeen = c.debouncer.lastSeen) : e.fresh.Sublist c.fresh := by
  rw [fresh, fresh, houtput, hlast]

/-- Nothing is fresh any more once the output is not watched. -/
theorem fresh_watchedBy {driver : Driver} (he : e.watched = watchedBy driver c.watched)
    (hfiles : e.files = c.files) (hdebouncer : e.debouncer = c.debouncer) :
    e.fresh.Sublist c.fresh := by
  rw [fresh, fresh, outputText?, outputText?, he, hfiles, hdebouncer, watchedBy]
  split
  · simp
  · exact List.Sublist.refl _

theorem fresh_of_act (hevent : event.IsAct) (hdebouncer : e.debouncer = c.debouncer) :
    ((Step.noticed? ⟨c, event, e⟩).toList.filter isPlain ++ e.fresh).Sublist
      (c.fresh ++ (Step.emitted? ⟨c, event, e⟩).toList) := by
  have hnoticed : Step.noticed? ⟨c, event, e⟩ = none := by cases hevent <;> rfl
  have hemitted : Step.emitted? ⟨c, event, e⟩ =
      if e.outputText? = c.outputText? then none else e.outputText? := by
    cases hevent <;> rfl
  rw [hnoticed, hemitted]
  by_cases houtput : e.outputText? = c.outputText?
  · rw [if_pos houtput]
    simpa using fresh_congr houtput (by rw [hdebouncer])
  · rw [if_neg houtput]
    exact List.sublist_append_of_sublist_right List.filter_sublist

theorem fresh_of_read {debouncer : Debouncer} (unheard : Nat)
    (hdebouncer : c.debouncer.step? (.read c.outputText?) = some debouncer) :
    (debouncer.outgoing?.toList.filter isPlain ++
      ({ c with debouncer, unheard } : Compilation BuildState).fresh).Sublist c.fresh := by
  have houtput : ({ c with debouncer, unheard } : Compilation BuildState).outputText? =
      c.outputText? := rfl
  rw [fresh, fresh, houtput]
  cases htext : c.outputText? with
  | none =>
    rw [htext] at hdebouncer
    simp [(Debouncer.of_read_none hdebouncer).2]
  | some text =>
    rw [htext] at hdebouncer
    obtain ⟨hlast, houtgoing⟩ := Debouncer.of_read_some hdebouncer
    by_cases hsame : text = c.debouncer.lastSeen
    · simp [houtgoing, hlast, hsame]
    · simp [houtgoing, hlast, hsame, List.filter_cons]

theorem fresh_of_work {w : Writer} {files : FileTree} (hmarked : c.IsMarked)
    (hwork : Writer.Work c.kept.writer c.files w files) (hfiles : e.files = files)
    (hwatched : e.watched = c.watched) (hdebouncer : e.debouncer = c.debouncer) :
    e.fresh.Sublist c.fresh := by
  cases hwork with
  | @writes out _ htask hwrite =>
    rcases outputText?_of_writeFile hwrite ⟨hfiles, hwatched⟩ with hsame | hout
    · exact fresh_congr hsame (by rw [hdebouncer])
    · simp [fresh, hout, isPlain, hmarked out htask]
  | _ =>
    have houtput : e.outputText? = c.outputText? := by simp only [outputText?, hfiles, hwatched]
    exact fresh_congr houtput (by rw [hdebouncer])

/-- What is noticed was fresh, and what gets fresh is written by a program. -/
theorem Change.fresh (hc : Change handler c event e) (hmarked : c.IsMarked) :
    ((Step.noticed? ⟨c, event, e⟩).toList.filter isPlain ++ e.fresh).Sublist
      (c.fresh ++ (Step.emitted? ⟨c, event, e⟩).toList) := by
  have hsame : ([] ++ c.fresh).Sublist (c.fresh ++ []) := by simp
  have hless : e.fresh.Sublist c.fresh → ([] ++ e.fresh).Sublist (c.fresh ++ []) := by simp
  cases hc with
  | acts hevent => exact fresh_of_act hevent rfl
  | aside hevent => cases hevent <;> exact hsame
  | debounces hevent _ hstep =>
    cases hevent with
    | read => exact (fresh_of_read _ hstep).trans (List.sublist_append_left _ _)
    | _ => exact hless (fresh_congr rfl (Debouncer.lastSeen_of_step hstep nofun))
  | sends _ _ hstep => exact hless (fresh_congr rfl (Debouncer.lastSeen_of_step hstep nofun))
  | hands => exact hsame
  | works _ hwork =>
    obtain ⟨writer, rfl, hdone⟩ := work_of_handler hwork
    exact hless (fresh_of_work hmarked hdone rfl rfl rfl)
  | isThrough => exact hless (fresh_watchedBy rfl rfl rfl)
  | tells => exact hless (fresh_watchedBy rfl rfl rfl)
  | drives hevent => cases hevent <;> exact hless (fresh_watchedBy rfl rfl rfl)

/-! ### What is written -/

theorem eq_writing_of_written? {s : Step BuildState} {out : Text} (h : s.written? = some out) :
    s.before.kept.writer.task = .writing out := by
  rw [Step.written?] at h
  split at h
  · cases htask : s.before.kept.writer.task <;> simp_all [Writer.Task.out?]
  · cases h

/-- A bundle is made before it is written. -/
theorem Change.written (hc : Change handler c event e) (hidle : c.IsIdle) :
    (Step.written? ⟨c, event, e⟩).toList.length + e.kept.writer.task.out?.toList.length ≤
      c.kept.writer.task.out?.toList.length + (Step.bundled? ⟨c, event, e⟩).toList.length := by
  cases hc with
  | acts hevent => cases hevent <;> simp [Step.written?, Step.bundled?]
  | aside hevent => cases hevent <;> simp [Step.written?, Step.bundled?]
  | debounces hevent => cases hevent <;> simp [Step.written?, Step.bundled?]
  | sends => simp [Step.written?, Step.bundled?]
  | @hands content _ _ _ hnot =>
    cases hbundle : isBundle content <;>
      simp [Step.written?, Step.bundled?, handler, Writer.take, hbundle, hidle hnot,
        Writer.Task.out?]
  | works _ hwork =>
    obtain ⟨writer, rfl, hdone⟩ := work_of_handler hwork
    cases hdone <;>
      simp_all [Step.written?, Step.bundled?, Writer.Task.out?, Writer.Task.content?, Writer.fail]
  | isThrough _ hwork =>
    simp [Step.written?, Step.bundled?, idle_of_handler hwork, Writer.Task.out?]
  | tells => simp [Step.written?, Step.bundled?, handler]
  | drives hevent => cases hevent <;> simp [Step.written?, Step.bundled?]

theorem Change.bundles (hc : Change handler c event e) :
    e.kept.writer.bundles ≤
      c.kept.writer.bundles + (Step.written? ⟨c, event, e⟩).toList.length := by
  cases hc with
  | @hands content =>
    cases hbundle : isBundle content <;> simp [Step.written?, handler, Writer.take, hbundle]
  | works _ hwork =>
    obtain ⟨writer, rfl, hdone⟩ := work_of_handler hwork
    cases hdone <;> simp_all [Step.written?, Writer.Task.out?, Writer.fail]
  | _ => simp [handler]

/-! ## Runs -/

/-- What holds all along a build. -/
structure Feeds (steps : List (Step BuildState)) (c : Compilation BuildState) : Prop where
  isIdle : c.IsIdle
  isMarked : c.IsMarked
  bundled : steps.filterMap Step.bundled? ++ c.kept.writer.task.content?.toList =
    (steps.filterMap Step.handed?).filter isPlain
  fresh : ((steps.filterMap Step.noticed?).filter isPlain ++ c.fresh).Sublist
    (steps.filterMap Step.emitted?)
  written : (steps.filterMap Step.written?).length + c.kept.writer.task.out?.toList.length ≤
    (steps.filterMap Step.bundled?).length
  bundles : c.kept.writer.bundles ≤ (steps.filterMap Step.written?).length
  marked : ∀ out ∈ steps.filterMap Step.written?, isBundle out = true

theorem writeFile_of_provision {files made : FileTree} {outFile : Path} {watched : Location}
    (h : files.provision outFile = (made, .ok watched)) :
    ∃ before : FileTree, before.writeFile (FileTree.pathOf watched) (Text.encode []) = .ok made := by
  have hempty : Text.encode [] = [] := by decide
  rw [FileTree.provision] at h
  split at h
  · cases h
  · split at h
    · cases h
    · rw [FileTree.provisionIn] at h
      split at h
      · cases h
      · split at h
        · cases h
        · next hwrite =>
          cases h
          exact ⟨_, hempty ▸ hwrite⟩

/-- At the start the output is empty. -/
theorem outputText?_of_starts {η : Type} {host : Host} {files : FileTree} {invocation : Invocation}
    {outFile : Path} {kept : η} {c : Compilation η} (hstart : Starts host files invocation outFile kept c)
    {text : Text} (h : c.outputText? = some text) : text = [] := by
  cases hstart with
  | @runs made watched _ hprovision =>
    obtain ⟨before, hwrite⟩ := writeFile_of_provision hprovision
    have hread : made.readText (FileTree.pathOf watched) = .ok text := Outcome.toOption_eq_some_iff.mp h
    exact Except.ok.inj
      ((FileTree.textOf_of_readText hread).symm.trans (FileTree.textOf_of_writeFile hwrite))
  | _ => cases h

section
variable {host : Host} {files : FileTree} {invocation : Invocation} {outFile : Path}
  {options : BundleOptions} {steps : List (Step BuildState)}

theorem feeds_start (hstart : Starts host files invocation outFile ⟨.start outFile options, []⟩ c) :
    Feeds [] c := by
  have hlast : c.debouncer.lastSeen = [] := by cases hstart <;> rfl
  have hfresh : c.fresh = [] := by
    rw [Compilation.fresh, hlast]
    cases houtput : c.outputText? with
    | none => rfl
    | some text => simp [outputText?_of_starts hstart houtput]
  cases hstart <;>
    exact ⟨fun _ => rfl, nofun, rfl, by simp [hfresh], Nat.le_refl 0, Nat.le_refl 0, nofun⟩

theorem feeds_step (hfeeds : Feeds steps c)
    (hc : Change handler c event e) : Feeds (steps ++ [⟨c, event, e⟩]) e := by
  have hbundled := hc.bundled hfeeds.isIdle
  have hfresh := hc.fresh hfeeds.isMarked
  have hwritten := hc.written hfeeds.isIdle
  have hbundles := hc.bundles
  refine ⟨hc.isIdle hfeeds.isIdle, hc.isMarked hfeeds.isMarked, ?_, ?_, ?_, ?_, ?_⟩
  · rw [Lists.filterMap_concat, Lists.filterMap_concat, List.append_assoc, hbundled,
      ← List.append_assoc, hfeeds.bundled, List.filter_append]
  · rw [Lists.filterMap_concat, Lists.filterMap_concat, List.filter_append, List.append_assoc]
    refine (List.Sublist.append_left hfresh _).trans ?_
    rw [← List.append_assoc]
    exact hfeeds.fresh.append_right _
  · rw [Lists.filterMap_concat, Lists.filterMap_concat, List.length_append, List.length_append]
    have := hfeeds.written
    omega
  · rw [Lists.filterMap_concat, List.length_append]
    have := hfeeds.bundles
    omega
  · rw [Lists.filterMap_concat]
    intro out hout
    rcases List.mem_append.mp hout with hout | hout
    · exact hfeeds.marked out hout
    · exact hfeeds.isMarked out (eq_writing_of_written? (Option.mem_toList.mp hout))

theorem Run.feeds
    (hrun : Run handler (Compilation.start host files invocation outFile ⟨.start outFile options, []⟩)
      steps d) : Feeds steps d := by
  induction hrun with
  | start => exact feeds_start (starts_start host files invocation outFile _)
  | step event _ hstep ih => exact feeds_step ih (change_of_step hstep)

end

/-! ## No feedback -/

/-- Every content that is bundled was read behind a write of its own, and no bundle is among them. -/
structure NoFeedback (steps : List (Step BuildState)) (d : Compilation BuildState) : Prop where
  charged : (steps.filterMap Step.bundled?).Sublist (steps.filterMap Step.emitted?)
  bundles_le : d.kept.writer.bundles ≤ (steps.filterMap Step.emitted?).length
  apart : ∀ out ∈ steps.filterMap Step.written?, out ∉ steps.filterMap Step.bundled?

/-- What was bundled is the beginning of what was noticed, as far as that is no bundle; and what is
going to be bundled comes next. -/
theorem bundled_isPrefix {steps : List (Step BuildState)} (haccounts : Accounts steps d)
    (hfeeds : Feeds steps d) :
    (steps.filterMap Step.bundled? ++ d.kept.writer.task.content?.toList) <+:
      (steps.filterMap Step.noticed?).filter isPlain := by
  rw [hfeeds.bundled, ← haccounts.noticed, ← haccounts.queue, List.append_assoc]
  exact (List.prefix_append _ _).filter isPlain

/-- **No bundle is bundled again**, and there are no more bundles than writes of the output by
programs. -/
theorem no_feedback {host : Host} {files : FileTree} {invocation : Invocation} {outFile : Path}
    {options : BundleOptions} {steps : List (Step BuildState)}
    (hrun : Run handler (start host files invocation outFile ⟨.start outFile options, []⟩) steps d) :
    NoFeedback steps d := by
  have hfeeds := hrun.feeds
  have hbundled := ((List.prefix_append _ _).trans (bundled_isPrefix hrun.accounts hfeeds)).sublist
  have hcharged : (steps.filterMap Step.bundled?).Sublist (steps.filterMap Step.emitted?) :=
    hbundled.trans ((List.sublist_append_left _ _).trans hfeeds.fresh)
  refine ⟨hcharged, ?_, ?_⟩
  · have hlength := hcharged.length_le
    have hwritten := hfeeds.written
    have hbundles := hfeeds.bundles
    omega
  · intro out hout hmem
    have hplain := (List.mem_filter.mp (hbundled.subset hmem)).2
    rw [isPlain, hfeeds.marked out hout] at hplain
    cases hplain

theorem no_feedback_once :
    ∃ steps d, Run handler
        (start (running (writing outputPath Scene.firstModule (.ended (.code 0)))) bareFiles compilerCall
          outputPath ⟨.start outputPath .default, []⟩) steps d ∧
      steps.filterMap Step.bundled? = [Scene.firstModule] ∧ NoFeedback steps d := by
  obtain ⟨out, hbundle⟩ := Scene.exists_bundle_firstModule
  obtain ⟨steps, d, hbuild⟩ := Scene.exists_succeeds_once (by decide) (by decide +kernel) hbundle
  exact ⟨steps, d, hbuild.run, hbuild.shows.bundled, no_feedback hbuild.run⟩

end Compilation
end AmdBundle
