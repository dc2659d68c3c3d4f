import AmdBundle.Proofs.Build.Feedback
import AmdBundle.Proofs.Build.Scene

/-!
# The last emission of a compiler

The driver is through when the compiler ends, if a content was handed over by then, and the writer
writes over whatever stands at its path. So the last text of a compiler is bundled if a content that was
read behind it is handed over. Otherwise it may stay as it is, or the bundle of an earlier text may be
written over it.

* `Works` : a bundle that is going to be written is that of the content bundled last; `works_step`;
* `Unfed` : before anything is bundled, no bundle can be read; `unfed_step`;
* `Leaves` : what stands at the output behind the last emission; `leaves_step`, `leaves_of_run`;
* `last_emission` : what a build leaves that succeeds;
* `not_keepsLast`, `exists_overwritten` : both ways to lose the last emission.
-/

set_option autoImplicit false

namespace AmdBundle.Compilation
open Build (handler)

variable {c d e : Compilation BuildState} {event : Event}

/-! ## What the writer bundles -/

/-- The text is the bundle of a content, made with the files as they were at some time. -/
def IsBundleOf (options : BundleOptions) (steps : List (Step BuildState)) (content out : Text) :
    Prop :=
  ∃ s ∈ steps, bundle s.before.files options content = some (.ok out)

theorem IsBundleOf.append {options : BundleOptions} {steps : List (Step BuildState)}
    {content out : Text} (h : IsBundleOf options steps content out)
    (more : List (Step BuildState)) : IsBundleOf options (steps ++ more) content out := by
  obtain ⟨s, hs, hbundle⟩ := h
  exact ⟨s, List.mem_append_left more hs, hbundle⟩

/-- The writer keeps its file and its options, and what it is going to write is the bundle of the
content that it bundled last. -/
structure Works (outFile : Path) (options : BundleOptions) (steps : List (Step BuildState))
    (c : Compilation BuildState) : Prop where
  sameFile : c.kept.writer.outFile = outFile
  sameOptions : c.kept.writer.options = options
  writing : ∀ out, c.kept.writer.task = .writing out →
    ∃ content, (steps.filterMap Step.bundled?).getLast? = some content ∧
      IsBundleOf options steps content out

variable {outFile : Path} {options : BundleOptions} {steps : List (Step BuildState)}

/-- A step that does not concern the writer. -/
theorem works_of_writer (hworks : Works outFile options steps c)
    (hwriter : e.kept.writer = c.kept.writer) (hbundled : Step.bundled? ⟨c, event, e⟩ = none) :
    Works outFile options (steps ++ [⟨c, event, e⟩]) e := by
  refine ⟨hwriter ▸ hworks.sameFile, hwriter ▸ hworks.sameOptions, fun out hout => ?_⟩
  obtain ⟨content, hlast, hbundle⟩ := hworks.writing out (hwriter ▸ hout)
  exact ⟨content, by simpa [Lists.filterMap_concat, hbundled] using hlast, hbundle.append _⟩

/-- A step behind which the writer has no bundle to write. -/
theorem works_of_not_writing (hworks : Works outFile options steps c)
    (hfile : e.kept.writer.outFile = c.kept.writer.outFile)
    (hoptions : e.kept.writer.options = c.kept.writer.options)
    (htask : ∀ out, e.kept.writer.task ≠ .writing out) :
    Works outFile options (steps ++ [⟨c, event, e⟩]) e :=
  ⟨hfile.trans hworks.sameFile, hoptions.trans hworks.sameOptions,
    fun out hout => absurd hout (htask out)⟩

theorem works_of_take {content : Text} (hworks : Works outFile options steps c)
    (hidle : c.kept.writer.task = .idle) (hwriter : e.kept.writer = c.kept.writer.take content) :
    Works outFile options (steps ++ [⟨c, event, e⟩]) e := by
  rw [Writer.take] at hwriter
  split at hwriter
  · exact works_of_not_writing hworks (by rw [hwriter]) (by rw [hwriter]) (by simp [hwriter, hidle])
  · exact works_of_not_writing hworks (by rw [hwriter]) (by rw [hwriter]) (by simp [hwriter])

theorem works_of_work {writer : Writer} {files : FileTree} (hworks : Works outFile options steps c)
    (hwriter : e.kept.writer = writer) (hwork : Writer.Work c.kept.writer c.files writer files) :
    Works outFile options (steps ++ [⟨c, .handle, e⟩]) e := by
  have hfile := congrArg Writer.outFile hwriter
  have hoptions := congrArg Writer.options hwriter
  cases hwork with
  | @bundles content out htask hbundle =>
    refine ⟨hfile.trans hworks.sameFile, hoptions.trans hworks.sameOptions, fun out' hout' => ?_⟩
    obtain rfl : out = out' := by simpa [hwriter] using hout'
    refine ⟨content, ?_, ⟨c, .handle, e⟩, by simp, hworks.sameOptions ▸ hbundle⟩
    simp [Step.bundled?, htask, Writer.Task.content?]
  | misses => exact works_of_not_writing hworks hfile hoptions (by simp [hwriter, Writer.fail])
  | writes => exact works_of_not_writing hworks hfile hoptions (by simp [hwriter])
  | gaveUp => exact works_of_not_writing hworks hfile hoptions (by simp [hwriter, Writer.fail])

theorem works_step (hworks : Works outFile options steps c) (hidle : c.IsIdle)
    (hc : Change handler c event e) : Works outFile options (steps ++ [⟨c, event, e⟩]) e := by
  cases hc.turn with
  | acts hevent hwriter => exact works_of_writer hworks hwriter (bundled?_of_isAct hevent)
  | reads hevent _ hwriter =>
    subst hevent
    exact works_of_writer hworks hwriter rfl
  | takes content _ _ hnot hwriter => exact works_of_take hworks (hidle hnot) hwriter
  | works hevent hwriter _ hwork =>
    subst hevent
    exact works_of_work hworks hwriter hwork
  | rests _ hwriter _ hbundled => exact works_of_writer hworks hwriter hbundled

theorem works_start {host : Host} {files : FileTree} {invocation : Invocation}
    (hstart : Starts host files invocation outFile ⟨.start outFile options, []⟩ c) :
    Works outFile options [] c := by
  cases hstart <;> exact ⟨rfl, rfl, nofun⟩

/-! ## Before anything is bundled -/

/-- No bundle was noticed, and none can be read. -/
structure Unfed (steps : List (Step BuildState)) (c : Compilation BuildState) : Prop where
  noticed : ∀ text ∈ steps.filterMap Step.noticed?, isPlain text = true
  output : ∀ text, c.outputText? = some text → isPlain text = true

theorem unfed_of_silent (hunfed : Unfed steps c) (hnoticed : Step.noticed? ⟨c, event, e⟩ = none)
    (houtput : ∀ text, e.outputText? = some text → isPlain text = true) :
    Unfed (steps ++ [⟨c, event, e⟩]) e := by
  refine ⟨?_, houtput⟩
  rw [Lists.filterMap_concat, hnoticed]
  simpa using hunfed.noticed

/-- Only the writer makes bundles, and only of what it bundled. -/
theorem unfed_step (hworks : Works outFile options steps c) (hunfed : Unfed steps c)
    (hc : Change handler c event e)
    (hplain : ∀ text, Step.emitted? ⟨c, event, e⟩ = some text → isBundle text = false)
    (hnone : List.filterMap Step.bundled? (steps ++ [⟨c, event, e⟩]) = []) :
    Unfed (steps ++ [⟨c, event, e⟩]) e := by
  rw [Lists.filterMap_concat, List.append_eq_nil_iff, Option.toList_eq_nil_iff] at hnone
  cases hc.turn with
  | acts hevent =>
    refine unfed_of_silent hunfed (noticed?_of_isAct hevent) fun text htext => ?_
    rw [emitted?_of_isAct hevent] at hplain
    by_cases hsame : e.outputText? = c.outputText?
    · exact hunfed.output text (hsame ▸ htext)
    · simp [isPlain, hplain text (by rw [if_neg hsame, htext])]
  | reads _ _ _ hnoticed houtput =>
    refine ⟨?_, fun text htext => hunfed.output text (houtput ▸ htext)⟩
    rw [Lists.filterMap_concat, List.forall_mem_append]
    refine ⟨hunfed.noticed, fun text htext => ?_⟩
    exact hunfed.output text (hnoticed text (Option.mem_toList.mp htext))
  | takes content hevent _ _ _ houtput =>
    subst hevent
    exact unfed_of_silent hunfed rfl fun text htext => hunfed.output text (houtput ▸ htext)
  | works hevent _ _ hwork =>
    subst hevent
    have hno : ∀ out, c.kept.writer.task ≠ .writing out := by
      intro out hout
      obtain ⟨content, hlast, -⟩ := hworks.writing out hout
      simp [hnone.1] at hlast
    have hnot : ∀ content, c.kept.writer.task ≠ .bundling content := by
      intro content hcontent
      simp [Step.bundled?, hcontent, Writer.Task.content?] at hnone
    cases hwork with
    | bundles htask => exact absurd htask (hnot _)
    | misses htask => exact absurd htask (hnot _)
    | writes htask => exact absurd htask (hno _)
    | gaveUp htask => exact absurd htask (hno _)
  | rests _ _ hnoticed _ houtput =>
    exact unfed_of_silent hunfed hnoticed fun text htext =>
      hunfed.output text (houtput text htext)

/-! ## Behind the last emission -/

/-- What was noticed and is no bundle. -/
def plainNoticed (steps : List (Step BuildState)) : List Text :=
  (steps.filterMap Step.noticed?).filter isPlain

theorem plainNoticed_concat (steps : List (Step BuildState)) (s : Step BuildState) :
    plainNoticed (steps ++ [s]) = plainNoticed steps ++ s.noticed?.toList.filter isPlain := by
  rw [plainNoticed, Lists.filterMap_concat, List.filter_append]
  rfl

/-- The text is the last emission, or the bundle of something that was bundled. -/
def IsLeft (options : BundleOptions) (last : Text) (steps : List (Step BuildState)) (text : Text) :
    Prop :=
  text = last ∨ isBundle text = true ∧
    ∃ content ∈ steps.filterMap Step.bundled?, IsBundleOf options steps content text

theorem IsLeft.append {last text : Text} (h : IsLeft options last steps text)
    (more : List (Step BuildState)) : IsLeft options last (steps ++ more) text := by
  refine h.imp_right ?_
  rintro ⟨hmark, content, hcontent, hbundle⟩
  refine ⟨hmark, content, ?_, hbundle.append more⟩
  rw [List.filterMap_append]
  exact List.mem_append_left _ hcontent

/-- What stands at the path of the output behind the last emission `last`, which comes behind the
steps `front`: the emission, or the bundle of something that was bundled; and the bundle of the
emission, if more was bundled than had been noticed before. -/
structure Leaves (outFile : Path) (options : BundleOptions) (front : List (Step BuildState))
    (last : Text) (steps : List (Step BuildState)) (c : Compilation BuildState) : Prop where
  noticed : ∃ more, plainNoticed steps = plainNoticed front ++ more ∧ ∀ text ∈ more, text = last
  text : ∃ text, c.files.readText outFile = .ok text ∧ IsLeft options last steps text
  writing : (plainNoticed front).length < (steps.filterMap Step.bundled?).length →
    ∀ out, c.kept.writer.task = .writing out → IsBundleOf options steps last out
  written : (plainNoticed front).length < (steps.filterMap Step.bundled?).length →
    (∀ out, c.kept.writer.task ≠ .writing out) → c.kept.writer.lastError = none →
      ∃ out, c.files.readText outFile = .ok out ∧ IsBundleOf options steps last out

variable {front : List (Step BuildState)} {last : Text}

/-- A step that leaves the output as it is, and in which the writer neither makes nor writes. -/
theorem leaves_of_same (hleaves : Leaves outFile options front last steps c)
    (hread : e.files.readText outFile = c.files.readText outFile)
    (hbundled : Step.bundled? ⟨c, event, e⟩ = none)
    (hnoticed : ∀ text, Step.noticed? ⟨c, event, e⟩ = some text → isPlain text = true → text = last)
    (hwriting : ∀ out, e.kept.writer.task = .writing out ↔ c.kept.writer.task = .writing out)
    (herror : e.kept.writer.lastError = c.kept.writer.lastError) :
    Leaves outFile options front last (steps ++ [⟨c, event, e⟩]) e := by
  have hsame : List.filterMap Step.bundled? (steps ++ [⟨c, event, e⟩]) =
      steps.filterMap Step.bundled? := by
    simp [hbundled]
  obtain ⟨more, hmore, hlast⟩ := hleaves.noticed
  refine ⟨⟨more ++ (Step.noticed? ⟨c, event, e⟩).toList.filter isPlain, ?_, ?_⟩, ?_, ?_, ?_⟩
  · rw [plainNoticed_concat, hmore, List.append_assoc]
  · rw [List.forall_mem_append]
    refine ⟨hlast, fun text htext => ?_⟩
    obtain ⟨htext, hplain⟩ := List.mem_filter.mp htext
    exact hnoticed text (Option.mem_toList.mp htext) hplain
  · obtain ⟨text, htext, hleft⟩ := hleaves.text
    exact ⟨text, hread ▸ htext, hleft.append _⟩
  · rw [hsame]
    exact fun hlt out hout => (hleaves.writing hlt out ((hwriting out).mp hout)).append _
  · rw [hsame, hread, herror]
    intro hlt hnot hnone
    obtain ⟨out, hout, hbundle⟩ :=
      hleaves.written hlt (fun out => (hwriting out).not.mp (hnot out)) hnone
    exact ⟨out, hout, hbundle.append _⟩

/-- The next content to be bundled is the last emission, if more was bundled than had been noticed
before that. -/
theorem eq_last_of_isPrefix {noticed more bundled : List Text} {content : Text}
    (h : bundled ++ [content] <+: noticed ++ more) (hmore : ∀ text ∈ more, text = last)
    (hlt : noticed.length < (bundled ++ [content]).length) : content = last := by
  obtain ⟨rest, hrest⟩ := h
  rw [List.append_assoc] at hrest
  have hle : noticed.length ≤ bundled.length := by
    rw [List.length_append, List.length_singleton] at hlt
    omega
  obtain ⟨mid, -, rfl⟩ := Lists.exists_append_of_length_le hrest.symm hle
  exact hmore content (by simp)

/-- A step in which the writer gives up. -/
theorem leaves_of_fail (hleaves : Leaves outFile options front last steps c)
    (hfiles : e.files = c.files) (hnoticed : Step.noticed? ⟨c, event, e⟩ = none) {fault : CommandError}
    (hwriter : e.kept.writer = c.kept.writer.fail fault) :
    Leaves outFile options front last (steps ++ [⟨c, event, e⟩]) e := by
  obtain ⟨more, hmore, hlast⟩ := hleaves.noticed
  obtain ⟨text, htext, hleft⟩ := hleaves.text
  refine ⟨⟨more, ?_, hlast⟩, ⟨text, hfiles ▸ htext, hleft.append _⟩, ?_, ?_⟩
  · rw [plainNoticed_concat, hnoticed, hmore]
    simp
  · intro _ out hout
    simp [hwriter, Writer.fail] at hout
  · intro _ _ hnone
    simp [hwriter, Writer.fail] at hnone

theorem leaves_of_work {writer : Writer} {files : FileTree}
    (hleaves : Leaves outFile options front last steps c)
    (hworks : Works outFile options steps c) (hmarked : c.IsMarked)
    (hbegins : (steps.filterMap Step.bundled? ++ c.kept.writer.task.content?.toList) <+:
      plainNoticed steps)
    (hwriter : e.kept.writer = writer) (hfiles : e.files = files)
    (hwork : Writer.Work c.kept.writer c.files writer files) :
    Leaves outFile options front last (steps ++ [⟨c, .handle, e⟩]) e := by
  obtain ⟨more, hmore, hlast⟩ := hleaves.noticed
  have hnoticed : plainNoticed (steps ++ [⟨c, .handle, e⟩]) = plainNoticed front ++ more := by
    rw [plainNoticed_concat, hmore]
    simp [Step.noticed?]
  cases hwork with
  | @bundles content out htask hbundle =>
    have hbundled : List.filterMap Step.bundled? (steps ++ [⟨c, .handle, e⟩]) =
        steps.filterMap Step.bundled? ++ [content] := by
      simp [Step.bundled?, htask, Writer.Task.content?]
    obtain ⟨text, htext, hleft⟩ := hleaves.text
    refine ⟨⟨more, hnoticed, hlast⟩, ⟨text, hfiles ▸ htext, hleft.append _⟩, ?_, ?_⟩
    · rw [hbundled]
      intro hlt out' hout'
      obtain rfl : out = out' := by simpa [hwriter] using hout'
      have hcontent : content = last := by
        rw [htask, hmore] at hbegins
        exact eq_last_of_isPrefix hbegins hlast hlt
      exact ⟨⟨c, .handle, e⟩, by simp, hworks.sameOptions ▸ hcontent ▸ hbundle⟩
    · intro _ hnot
      exact absurd (by rw [hwriter]) (hnot out)
  | misses => exact leaves_of_fail hleaves hfiles rfl hwriter
  | @writes out written htask hwrite =>
    have hbundled : List.filterMap Step.bundled? (steps ++ [⟨c, .handle, e⟩]) =
        steps.filterMap Step.bundled? := by
      simp [Step.bundled?, htask, Writer.Task.content?]
    obtain ⟨old, hold, -⟩ := hleaves.text
    have hread : e.files.readText outFile = .ok out := by
      rw [hfiles, ← hworks.sameFile]
      exact FileTree.readText_of_writeFile (hworks.sameFile ▸ hold) hwrite
    obtain ⟨content, hcontent, hbundle⟩ := hworks.writing out htask
    refine ⟨⟨more, hnoticed, hlast⟩, ⟨out, hread, .inr ⟨hmarked out htask, content, ?_, ?_⟩⟩, ?_, ?_⟩
    · rw [hbundled]
      exact List.mem_of_getLast? hcontent
    · exact hbundle.append _
    · intro _ out' hout'
      simp [hwriter] at hout'
    · rw [hbundled]
      exact fun hlt _ _ => ⟨out, hread, (hleaves.writing hlt out htask).append _⟩
  | gaveUp => exact leaves_of_fail hleaves hfiles rfl hwriter

theorem leaves_step (hleaves : Leaves outFile options front last steps c)
    (hworks : Works outFile options steps c) (hidle : c.IsIdle) (hmarked : c.IsMarked)
    (hbegins : (steps.filterMap Step.bundled? ++ c.kept.writer.task.content?.toList) <+:
      plainNoticed steps)
    (hc : Change handler c event e) (hsteady : IsSteady outFile ⟨c, event, e⟩)
    (hemitted : Step.emitted? ⟨c, event, e⟩ = none) :
    Leaves outFile options front last (steps ++ [⟨c, event, e⟩]) e := by
  cases hc.turn with
  | acts hevent hwriter =>
    refine leaves_of_same hleaves ?_ (bundled?_of_isAct hevent) ?_ (by simp [hwriter])
      (by rw [hwriter])
    · obtain ⟨before, hbefore, hread⟩ := hsteady.before
      obtain ⟨after, hafter, hread'⟩ := hsteady.after (hc.driver_of_isAct hevent ▸ hsteady.isOpen)
      have hoption : e.outputText? = c.outputText? := by
        by_contra hother
        rw [emitted?_of_isAct hevent, if_neg hother, hafter] at hemitted
        cases hemitted
      rw [hafter, hbefore] at hoption
      rw [hread', hread, Option.some.inj hoption]
    · simp [noticed?_of_isAct hevent]
  | reads hevent hfiles hwriter hnoticed =>
    subst hevent
    refine leaves_of_same hleaves (by rw [hfiles]) rfl ?_ (by simp [hwriter]) (by rw [hwriter])
    intro text htext hplain
    obtain ⟨before, hbefore, hread⟩ := hsteady.before
    obtain rfl : before = text := Option.some.inj (hbefore.symm.trans (hnoticed text htext))
    obtain ⟨text', htext', hcase⟩ := hleaves.text
    obtain rfl : before = text' := Except.ok.inj (hread.symm.trans htext')
    refine hcase.resolve_right ?_
    rintro ⟨hmark, -⟩
    simp [isPlain, hmark] at hplain
  | takes content hevent hfiles hnot hwriter =>
    subst hevent
    have htask := hidle hnot
    have hnever : ∀ out, (c.kept.writer.take content).task ≠ .writing out := by
      intro out
      rw [Writer.take]
      split
      · simp [htask]
      · simp
    refine leaves_of_same hleaves (by rw [hfiles]) rfl ?_ ?_ ?_
    · intro text htext
      cases htext
    · intro out
      simp [hwriter, hnever out, htask]
    · rw [hwriter, Writer.take]
      split <;> rfl
  | works hevent hwriter hfiles hwork =>
    subst hevent
    exact leaves_of_work hleaves hworks hmarked hbegins hwriter hfiles hwork
  | rests hfiles hwriter hnoticed hbundled =>
    exact leaves_of_same hleaves (by rw [hfiles]) hbundled (by simp [hnoticed]) (by simp [hwriter])
      (by rw [hwriter])

theorem isAct_of_emitted? {s : Step BuildState} (h : s.emitted? = some last) :
    s.event.IsAct ∧ s.after.outputText? = some last := by
  obtain ⟨c, event, e⟩ := s
  have hevent : event.IsAct := by
    cases event with
    | compilerActs => exact .compiler
    | otherActs i => exact .other i
    | _ => cases h
  rw [emitted?_of_isAct hevent] at h
  split at h
  · cases h
  · exact ⟨hevent, h⟩

section
variable {host : Host} {files : FileTree} {invocation : Invocation}

theorem Run.works (hrun : Run handler
    (Compilation.start host files invocation outFile ⟨.start outFile options, []⟩) steps d) :
    Works outFile options steps d := by
  induction hrun with
  | start => exact works_start (starts_start host files invocation outFile _)
  | step event hrun hstep ih => exact works_step ih hrun.feeds.isIdle (change_of_step hstep)

theorem leaves_start {s : Step BuildState} (hrun : Run handler
    (start host files invocation outFile ⟨.start outFile options, []⟩) front s.before)
    (hstep : s.before.step? handler s.event = some s.after) (hsteady : IsSteady outFile s)
    (hlast : s.emitted? = some last) :
    Leaves outFile options front last (front ++ [s]) s.after := by
  obtain ⟨hevent, houtput⟩ := isAct_of_emitted? hlast
  have hopen : s.after.driver.result? = none := by
    rw [(change_of_step hstep).driver_of_isAct hevent, hsteady.isOpen]
  obtain ⟨text, htext, hread⟩ := hsteady.after hopen
  obtain rfl : last = text := Option.some.inj (houtput.symm.trans htext)
  have hbundled : (front ++ [s]).filterMap Step.bundled? = front.filterMap Step.bundled? := by
    rw [Lists.filterMap_concat, bundled?_of_isAct hevent]
    simp
  have hbegins := (List.prefix_append _ _).trans (bundled_isPrefix hrun.accounts hrun.feeds)
  have hnot : ¬ (plainNoticed front).length < ((front ++ [s]).filterMap Step.bundled?).length := by
    rw [hbundled]
    exact Nat.not_lt.mpr hbegins.length_le
  refine ⟨⟨[], ?_, nofun⟩, ⟨last, hread, .inl rfl⟩, fun hlt => absurd hlt hnot,
    fun hlt => absurd hlt hnot⟩
  rw [plainNoticed_concat, noticed?_of_isAct hevent]
  rfl

theorem leaves_of_run {back : List (Step BuildState)} {s : Step BuildState} (hrun : Run handler
    (start host files invocation outFile ⟨.start outFile options, []⟩) (front ++ s :: back) d)
    (hsteady : ∀ step ∈ front ++ s :: back, IsSteady outFile step)
    (hlast : s.emitted? = some last) (hnone : back.filterMap Step.emitted? = []) :
    Leaves outFile options front last (front ++ s :: back) d := by
  obtain ⟨hfront, hstep, hback⟩ := hrun.split
  rw [List.append_cons] at hsteady ⊢
  have hpast := hfront.step s.event hstep
  clear hrun
  induction hback with
  | start =>
    simpa using leaves_start hfront hstep (hsteady s (by simp)) hlast
  | @step steps c e event hrun hstep' ih =>
    rw [← List.append_assoc] at hsteady ⊢
    rw [Lists.filterMap_concat, List.append_eq_nil_iff, Option.toList_eq_nil_iff] at hnone
    have hsofar := ih (fun step hmem => hsteady step (List.mem_append_left _ hmem)) hnone.1
    have hall := hpast.append hrun
    have hfeeds := hall.feeds
    exact leaves_step hsofar hall.works hfeeds.isIdle hfeeds.isMarked
      (bundled_isPrefix hall.accounts hfeeds) (change_of_step hstep') (hsteady _ (by simp)) hnone.2

theorem Run.unfed (hrun : Run handler
    (Compilation.start host files invocation outFile ⟨.start outFile options, []⟩) steps d)
    (hplain : ∀ text ∈ steps.filterMap Step.emitted?, isBundle text = false)
    (hnone : steps.filterMap Step.bundled? = []) : Unfed steps d := by
  induction hrun with
  | start =>
    refine ⟨nofun, fun text htext => ?_⟩
    rw [outputText?_of_starts (starts_start host files invocation outFile _) htext]
    rfl
  | step event hrun hstep ih =>
    have hbefore := hnone
    rw [Lists.filterMap_concat, List.append_eq_nil_iff] at hbefore
    rw [Lists.filterMap_concat, List.forall_mem_append] at hplain
    exact unfed_step hrun.works (ih hplain.1 hbefore.1) (change_of_step hstep)
      (fun text htext => hplain.2 text (Option.mem_toList.mpr htext)) hnone

/-! ## The end of a build -/

/-- A content that was noticed behind the steps `front` and is no bundle was handed over. -/
def Arrives (front steps : List (Step BuildState)) : Prop :=
  (plainNoticed front).length < ((steps.filterMap Step.handed?).filter isPlain).length

theorem bundled_eq_handed (haccounts : Accounts steps d) (hfeeds : Feeds steps d)
    (hresult : d.driver.result?.isSome = true) : d.kept.writer.task = .idle ∧
      steps.filterMap Step.bundled? = (steps.filterMap Step.handed?).filter isPlain := by
  have htask := hfeeds.isIdle (haccounts.accepts.isIdle hresult)
  have hbundled := hfeeds.bundled
  rw [htask] at hbundled
  exact ⟨htask, by simpa [Writer.Task.content?] using hbundled⟩

/-- Something was bundled if something was handed over. -/
theorem bundled_ne_nil {outcome : CompileOutcome} (hrun : Run handler
    (start host files invocation outFile ⟨.start outFile options, []⟩) steps d)
    (hplain : ∀ text ∈ steps.filterMap Step.emitted?, isBundle text = false)
    (hresult : d.driver.result? = some (.ok outcome)) (htime : outcome.byTimeout = false) :
    steps.filterMap Step.bundled? ≠ [] := by
  intro hnone
  have haccounts := hrun.accounts
  have hunfed := hrun.unfed hplain hnone
  have hbundled := (bundled_eq_handed haccounts hrun.feeds (by simp [hresult])).2
  obtain ⟨hcount, hzero⟩ := haccounts.outcome hresult
  have hall : (steps.filterMap Step.handed?).filter isPlain = steps.filterMap Step.handed? := by
    rw [List.filter_eq_self]
    intro text htext
    refine hunfed.noticed text ?_
    rw [← haccounts.noticed, ← haccounts.queue]
    simp [htext]
  rw [hnone, hall] at hbundled
  rw [← hbundled] at hcount
  rw [hzero.mpr hcount] at htime
  cases htime

/-- What a build that succeeded leaves behind the last emission of its compiler. -/
structure LastEmission (outFile : Path) (options : BundleOptions) (front steps : List (Step BuildState))
    (last : Text) (d : Compilation BuildState) : Prop where
  /-- The bundle of the last emission, if a content that was noticed behind it was handed over. -/
  arrived : Arrives front steps → ∃ out, d.files.readText outFile = .ok out ∧
    IsBundleOf options steps last out
  /-- Otherwise the emission as it is, or the bundle of an earlier one. -/
  missed : ¬ Arrives front steps → d.files.readText outFile = .ok last ∨
    ∃ out, d.files.readText outFile = .ok out ∧
      ∃ earlier ∈ front.filterMap Step.emitted?, IsBundleOf options steps earlier out
  /-- The only emission arrives. -/
  only : front.filterMap Step.emitted? = [] → Arrives front steps
  /-- So does the last one if as many contents were handed over to be bundled as were emitted. -/
  all : ((steps.filterMap Step.handed?).filter isPlain).length =
    (steps.filterMap Step.emitted?).length → Arrives front steps

/-- **The last emission of a compiler** is bundled if a content that was read behind it is handed over.
For the writer is told the contents in order, and from there on the output holds no other plain text. -/
theorem last_emission {front back : List (Step BuildState)} {s : Step BuildState} {last : Text}
    {outcome : CompileOutcome} (hrun : Run handler
      (start host files invocation outFile ⟨.start outFile options, []⟩) (front ++ s :: back) d)
    (hsteady : ∀ step ∈ front ++ s :: back, IsSteady outFile step)
    (hplain : ∀ text ∈ (front ++ s :: back).filterMap Step.emitted?, isBundle text = false)
    (hlast : s.emitted? = some last) (hnone : back.filterMap Step.emitted? = [])
    (hresult : d.driver.result? = some (.ok outcome)) (htime : outcome.byTimeout = false)
    (herror : d.kept.writer.lastError = none) :
    LastEmission outFile options front (front ++ s :: back) last d := by
  have hleaves := leaves_of_run hrun hsteady hlast hnone
  have hbundled := bundled_eq_handed hrun.accounts hrun.feeds (by simp [hresult])
  have hfront := hrun.split.1
  have hnoticed : (plainNoticed front).Sublist (front.filterMap Step.emitted?) :=
    (List.sublist_append_left _ _).trans hfront.feeds.fresh
  refine ⟨fun harrives => ?_, fun hmissed => ?_, fun hfirst => ?_, fun hall => ?_⟩
  · exact hleaves.written (hbundled.2 ▸ harrives) (by simp [hbundled.1]) herror
  · obtain ⟨text, htext, rfl | ⟨-, content, hcontent, hbundle⟩⟩ := hleaves.text
    · exact .inl htext
    · -- What was bundled was noticed before the last emission.
      obtain ⟨more, hmore, -⟩ := hleaves.noticed
      have hbegins := (List.prefix_append _ _).trans (bundled_isPrefix hrun.accounts hrun.feeds)
      rw [show List.filter isPlain _ = _ from hmore] at hbegins
      rw [Arrives, ← hbundled.2, Nat.not_lt] at hmissed
      have hbefore := List.prefix_of_prefix_length_le hbegins (List.prefix_append _ more) hmissed
      exact .inr ⟨text, htext, content, hnoticed.subset (hbefore.subset hcontent), hbundle⟩
  · rw [hfirst, List.sublist_nil] at hnoticed
    rw [Arrives, hnoticed, ← hbundled.2]
    exact List.length_pos_iff.mpr (bundled_ne_nil hrun hplain hresult htime)
  · rw [Arrives, hall, List.filterMap_append, List.length_append, List.filterMap_cons_some hlast]
    have := hnoticed.length_le
    simp
    omega

end

theorem last_emission_once :
    ∃ front s back d, Run handler
        (start (running (writing outputPath Scene.firstModule (.ended (.code 0)))) bareFiles compilerCall
          outputPath ⟨.start outputPath .default, []⟩) (front ++ s :: back) d ∧
      s.emitted? = some Scene.firstModule ∧ Arrives front (front ++ s :: back) ∧
      LastEmission outputPath .default front (front ++ s :: back) Scene.firstModule d := by
  obtain ⟨out, hbundle⟩ := Scene.exists_bundle_firstModule
  have hplain : isBundle Scene.firstModule = false := by decide +kernel
  obtain ⟨steps, d, hbuild⟩ := Scene.exists_succeeds_once (by decide) hplain hbundle
  have hemitted : steps.filterMap Step.emitted? = [] ++ [Scene.firstModule] := hbuild.shows.emitted
  obtain ⟨front, s, back, rfl, hlast, hfirst, hnone⟩ :=
    Lists.exists_of_filterMap_eq_concat hemitted
  have hkept := last_emission hbuild.run hbuild.shows.isSteady (by simpa [hemitted] using hplain) hlast
    hnone hbuild.result rfl hbuild.lastError
  exact ⟨front, s, back, d, hbuild.run, hlast, hkept.only hfirst, hkept⟩

/-! ## Emissions that get lost -/

/-- Every build on the host that succeeds leaves the bundle of the last emission of the compiler. -/
def KeepsLast (host : Host) (files : FileTree) (invocation : Invocation) (outFile : Path)
    (options : BundleOptions) : Prop :=
  ∀ front s back d last outcome,
    Run handler (start host files invocation outFile ⟨.start outFile options, []⟩) (front ++ s :: back) d →
    (∀ step ∈ front ++ s :: back, IsSteady outFile step) →
    (∀ text ∈ (front ++ s :: back).filterMap Step.emitted?,
      isBundle text = false ∧ ∃ fs out, bundle fs options text = some (.ok out)) →
    s.emitted? = some last → back.filterMap Step.emitted? = [] →
    d.driver.result? = some (.ok outcome) → outcome.byTimeout = false →
    d.kept.writer.lastError = none →
      ∃ fs out, bundle fs options last = some (.ok out) ∧ d.files.readText outFile = .ok out

/-- A compiler that writes two modules, one after the other. -/
def twoModules : Activity :=
  writing outputPath Scene.firstModule (writing outputPath Scene.secondModule (.ended (.code 0)))

/-- If the compiler ends before its last module is read, that stays as it is. -/
theorem not_keepsLast :
    ¬ KeepsLast (running twoModules) bareFiles compilerCall outputPath .default := by
  intro hkeeps
  obtain ⟨out, hbundle⟩ := Scene.exists_bundle_firstModule
  obtain ⟨other, hsecond⟩ := Scene.exists_bundle_secondModule
  have hplain : isBundle Scene.firstModule = false := by decide +kernel
  have hother : isBundle Scene.secondModule = false := by decide +kernel
  have hne : Scene.secondModule ≠ out := by
    rintro rfl
    simp [isBundle_of_bundle hbundle] at hother
  obtain ⟨steps, d, hbuild⟩ := Scene.exists_succeeds_unread (by decide) hplain hbundle hne
  have hemitted : steps.filterMap Step.emitted? = [Scene.firstModule] ++ [Scene.secondModule] :=
    hbuild.shows.emitted
  obtain ⟨front, s, back, rfl, hlast, -, hnone⟩ :=
    Lists.exists_of_filterMap_eq_concat hemitted
  have hbundles : ∀ text ∈ (front ++ s :: back).filterMap Step.emitted?,
      isBundle text = false ∧ ∃ fs out, bundle fs .default text = some (.ok out) := by
    rw [hemitted, List.singleton_append]
    exact List.forall_mem_cons.mpr
      ⟨⟨hplain, _, out, hbundle⟩, List.forall_mem_singleton.mpr ⟨hother, _, other, hsecond⟩⟩
  obtain ⟨fs, bundled, hbundled, hread⟩ := hkeeps front s back d Scene.secondModule _ hbuild.run
    hbuild.shows.isSteady hbundles hlast hnone hbuild.result rfl hbuild.lastError
  rw [hbuild.files, readText_oneFile] at hread
  obtain rfl := Except.ok.inj hread
  simp [isBundle_of_bundle hbundled] at hother

/-- If the compiler writes its last module while the first one is bundled, that bundle is written over
it. -/
theorem exists_overwritten : ∃ steps d out, bundle (oneFile Scene.firstModule) .default Scene.firstModule =
      some (.ok out) ∧
    Scene.Succeeds twoModules .default [Scene.firstModule, Scene.secondModule] [Scene.firstModule] out
      steps d := by
  obtain ⟨out, hbundle⟩ := Scene.exists_bundle_firstModule
  have hother : Scene.secondModule ≠ Scene.firstModule := by decide
  obtain ⟨steps, d, hbuild⟩ :=
    Scene.exists_succeeds_overwritten (by decide) (by decide +kernel) hbundle hother
  exact ⟨steps, d, out, hbundle, hbuild⟩

end AmdBundle.Compilation
