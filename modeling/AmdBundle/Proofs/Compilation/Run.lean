import AmdBundle.Compilation.Clock
import Mathlib.Data.List.Induction

/-!
# Runs of a compile

A run lists its steps, so that what was written, read, sent and handed over along it can be told, in
the order in which it happened.

* `Change` : all that one step can do; `change_of_step` : it does nothing else;
* `Run` : the steps that lead from one compile to another; `run_append_iff` : a run in two parts;
* `trace?` : the run of some events; `bareFiles`, `outputPath`, `running`, `writing` : what such a run may
  start with;
* `Step.emitted?`, `Step.noticed?`, `Step.sent?`, `Step.handed?`, `Step.told?`, `Step.exit?` : what
  happened in a step;
* `Clock.exists_run` : a compile in time is a run.
-/

set_option autoImplicit false

namespace AmdBundle.Compilation
variable {η : Type}

/-! ## What a step does -/

/-- A program acts. -/
inductive Event.IsAct : Event → Prop where
  | compiler : IsAct .compilerActs
  | other (index : Nat) : IsAct (.otherActs index)

/-- Lines are read, or a change is reported that is none. -/
inductive Event.IsAside : Event → Prop where
  | receive (outlet : Outlet) : IsAside (.receive outlet)
  | stir : IsAside .stir
  | lastLines : IsAside .lastLines

/-- The debouncer hears, waits or reads. -/
inductive Event.Debounces (output : Option Text) : Event → Debouncer.Event → Prop where
  | hear : Debounces output .hear .hear
  | quiet : Debounces output .quiet .quiet
  | read : Debounces output .read (.read output)

/-- The driver goes on without handing anything over. -/
inductive Event.Drives (c : Compilation η) : Event → Driver.Event → Prop where
  | exit {status : ExitStatus} (hstatus : c.compiler.status? = some status) :
      Drives c .exit (.exited status)
  | lost (cause : SystemError) : Drives c (.lost cause) (.broken (.spawn cause))
  | drained : Drives c .drained .drained
  | tick (late : Bool) : Drives c (.tick late) (.tick late)

/-- Where the output is still watched if the driver got that far. -/
def watchedBy (driver : Driver) (watched : Option Location) : Option Location :=
  if driver.result?.isSome then none else watched

/-- What a step can do. -/
inductive Change (h : Handler η) (c : Compilation η) : Event → Compilation η → Prop where
  | acts {event : Event} (hevent : event.IsAct) (files : FileTree) (isReported : Bool)
      (compiler : Activity) (others : List Activity) (printed : List (Outlet × Bytes))
      (unheard : Nat) :
      Change h c event { c with files, isReported, compiler, others, printed, unheard }
  | aside {event : Event} (hevent : event.IsAside) (printed : List (Outlet × Bytes))
      (normal errors : LineReader) (lines : List Text) (unheard : Nat) :
      Change h c event { c with printed, normal, errors, lines, unheard }
  | debounces {event : Event} {step : Debouncer.Event} {debouncer : Debouncer}
      (hevent : event.Debounces c.outputText? step) (hwatched : c.watched.isSome)
      (hstep : c.debouncer.step? step = some debouncer) (unheard : Nat) :
      Change h c event { c with debouncer, unheard }
  | sends {content : Text} {debouncer : Debouncer} (houtgoing : c.debouncer.outgoing? = some content)
      (hwatched : c.watched.isSome) (hstep : c.debouncer.step? .send = some debouncer) :
      Change h c .send { c with debouncer, contents := c.contents ++ [content] }
  | hands {content : Text} {rest : List Text} {driver : Driver}
      (hcontents : c.contents = content :: rest) (hidle : c.isHandling = false)
      (hstep : c.driver.step? .content = some driver) :
      Change h c .content
        { c with contents := rest, isHandling := true, kept := h.onContent c.kept content }
  | works {kept : η} {files : FileTree} (hhandling : c.isHandling = true)
      (hwork : h.work c.kept c.files = .more kept files) (isReported : Bool) (unheard : Nat) :
      Change h c .handle { c with kept, files, isReported, unheard }
  | isThrough {driver : Driver} (hhandling : c.isHandling = true)
      (hwork : h.work c.kept c.files = .done) (hstep : c.driver.step? .content = some driver) :
      Change h c .handle
        { c with isHandling := false, driver, watched := watchedBy driver c.watched }
  | tells {line : Text} {rest : List Text} {driver : Driver} (hlines : c.lines = line :: rest)
      (hidle : c.isHandling = false) (hstep : c.driver.step? .line = some driver) :
      Change h c .line
        { c with
          lines := rest, kept := h.onLine c.kept line, driver, watched := watchedBy driver c.watched }
  | drives {event : Event} {step : Driver.Event} {driver : Driver}
      (hevent : event.Drives c step) (hidle : c.isHandling = false)
      (hstep : c.driver.step? step = some driver) :
      Change h c event { c with driver, watched := watchedBy driver c.watched }

theorem drive_eq_some {c e : Compilation η} {step : Driver.Event} (h : c.drive step = some e) :
    c.isHandling = false ∧ ∃ driver, c.driver.step? step = some driver ∧
      e = { c with driver, watched := watchedBy driver c.watched } := by
  rw [drive] at h
  split at h
  · cases h
  · next hidle =>
    obtain ⟨driver, hstep, rfl⟩ := Option.map_eq_some_iff.mp h
    exact ⟨by simpa using hidle, driver, hstep, rfl⟩

theorem debounce_eq_some {c e : Compilation η} {step : Debouncer.Event}
    (h : c.debounce step = some e) :
    c.watched.isSome ∧ ∃ debouncer, c.debouncer.step? step = some debouncer ∧
      e = { c with debouncer } := by
  rw [debounce] at h
  split at h
  · next hwatched =>
    obtain ⟨debouncer, hstep, rfl⟩ := Option.map_eq_some_iff.mp h
    exact ⟨hwatched, debouncer, hstep, rfl⟩
  · cases h

/-- A step does nothing else. -/
theorem change_of_step {h : Handler η} {c e : Compilation η} {event : Event}
    (hstep : c.step? h event = some e) : Change h c event e := by
  cases event with
  | compilerActs =>
    obtain ⟨effect, -, rfl⟩ := Option.map_eq_some_iff.mp hstep
    exact .acts .compiler ..
  | otherActs i =>
    obtain ⟨effect, -, rfl⟩ := Option.map_eq_some_iff.mp hstep
    exact .acts (.other i) ..
  | receive outlet =>
    obtain ⟨found, -, rfl⟩ := Option.map_eq_some_iff.mp hstep
    cases outlet with
    | normal => exact .aside (.receive _) ..
    | errors => exact .aside (.receive _) ..
  | stir =>
    rw [step?] at hstep
    split at hstep
    · obtain rfl := Option.some.inj hstep
      exact .aside .stir ..
    · cases hstep
  | hear =>
    rw [step?] at hstep
    split at hstep
    · obtain ⟨c', hc', rfl⟩ := Option.map_eq_some_iff.mp hstep
      obtain ⟨hwatched, debouncer, hdebouncer, rfl⟩ := debounce_eq_some hc'
      exact .debounces .hear hwatched hdebouncer _
    · cases hstep
  | quiet =>
    obtain ⟨hwatched, debouncer, hdebouncer, rfl⟩ := debounce_eq_some hstep
    exact .debounces .quiet hwatched hdebouncer _
  | read =>
    obtain ⟨hwatched, debouncer, hdebouncer, rfl⟩ := debounce_eq_some hstep
    exact .debounces .read hwatched hdebouncer _
  | send =>
    rw [step?, sendContent] at hstep
    split at hstep
    · cases hstep
    · next content houtgoing =>
      split at hstep
      · obtain ⟨c', hc', rfl⟩ := Option.map_eq_some_iff.mp hstep
        obtain ⟨hwatched, debouncer, hdebouncer, rfl⟩ := debounce_eq_some hc'
        exact .sends houtgoing hwatched hdebouncer
      · cases hstep
  | content =>
    rw [step?, handContent] at hstep
    split at hstep
    · cases hstep
    · next content rest hcontents =>
      obtain ⟨c', hc', rfl⟩ := Option.map_eq_some_iff.mp hstep
      obtain ⟨hidle, driver, hdriver, -⟩ := drive_eq_some hc'
      exact .hands hcontents hidle hdriver
  | handle =>
    rw [step?, goOn] at hstep
    split at hstep
    · next hhandling =>
      split at hstep
      · next kept files hwork =>
        obtain rfl := Option.some.inj hstep
        exact .works hhandling hwork ..
      · next hwork =>
        obtain ⟨-, driver, hdriver, rfl⟩ := drive_eq_some hstep
        exact .isThrough hhandling hwork hdriver
      · cases hstep
    · cases hstep
  | line =>
    rw [step?, handLine] at hstep
    split at hstep
    · cases hstep
    · next line rest hlines =>
      obtain ⟨c', hc', rfl⟩ := Option.map_eq_some_iff.mp hstep
      obtain ⟨hidle, driver, hdriver, rfl⟩ := drive_eq_some hc'
      exact .tells hlines hidle hdriver
  | lastLines =>
    rw [step?, closeLines] at hstep
    split at hstep
    · obtain rfl := Option.some.inj hstep
      exact .aside .lastLines ..
    · cases hstep
  | exit =>
    obtain ⟨status, hstatus, hdrive⟩ := Option.bind_eq_some_iff.mp hstep
    obtain ⟨hidle, driver, hdriver, rfl⟩ := drive_eq_some hdrive
    exact .drives (.exit hstatus) hidle hdriver
  | lost cause =>
    obtain ⟨hidle, driver, hdriver, rfl⟩ := drive_eq_some hstep
    exact .drives (.lost cause) hidle hdriver
  | drained =>
    obtain ⟨hidle, driver, hdriver, rfl⟩ := drive_eq_some hstep
    exact .drives .drained hidle hdriver
  | tick late =>
    obtain ⟨hidle, driver, hdriver, rfl⟩ := drive_eq_some hstep
    exact .drives (.tick late) hidle hdriver

/-! ## Runs -/

/-- A compile before and after an event. -/
structure Step (η : Type) where
  before : Compilation η
  event : Event
  after : Compilation η

/-- The steps that lead from one compile to another. -/
inductive Run (h : Handler η) (c : Compilation η) : List (Step η) → Compilation η → Prop where
  | start : Run h c [] c
  | step {steps : List (Step η)} {d e : Compilation η} (event : Event) :
      Run h c steps d → d.step? h event = some e → Run h c (steps ++ [⟨d, event, e⟩]) e

theorem reaches_iff {h : Handler η} {c d : Compilation η} :
    Reaches h c d ↔ ∃ steps, Run h c steps d := by
  constructor
  · intro hreach
    induction hreach with
    | refl => exact ⟨[], .start⟩
    | step event _ hstep ih =>
      obtain ⟨steps, hrun⟩ := ih
      exact ⟨_, hrun.step event hstep⟩
  · rintro ⟨steps, hrun⟩
    induction hrun with
    | start => exact .refl c
    | step event _ hstep ih => exact .step event ih hstep

theorem Run.append {h : Handler η} {c m d : Compilation η} {front back : List (Step η)}
    (hfront : Run h c front m) (hback : Run h m back d) : Run h c (front ++ back) d := by
  induction hback with
  | start => simpa using hfront
  | step event _ hstep ih =>
    rw [← List.append_assoc]
    exact ih.step event hstep

theorem run_append_iff {h : Handler η} {c d : Compilation η} {front back : List (Step η)} :
    Run h c (front ++ back) d ↔ ∃ m, Run h c front m ∧ Run h m back d := by
  constructor
  · intro hrun
    induction back using List.reverseRecOn generalizing d with
    | nil => exact ⟨d, by simpa using hrun, .start⟩
    | append_singleton back last ih =>
      rw [← List.append_assoc] at hrun
      generalize hsteps : front ++ back ++ [last] = steps at hrun
      cases hrun with
      | start => simp at hsteps
      | step event hrun hstep =>
        obtain ⟨rfl, rfl⟩ := List.append_inj' hsteps rfl |>.imp_right List.singleton_inj.mp
        obtain ⟨m, hfront, hback⟩ := ih hrun
        exact ⟨m, hfront, hback.step event hstep⟩
  · rintro ⟨m, hfront, hback⟩
    exact hfront.append hback

/-- What stands before and behind a step of a run. -/
theorem Run.split {h : Handler η} {c d : Compilation η} {front back : List (Step η)} {s : Step η}
    (hrun : Run h c (front ++ s :: back) d) :
    Run h c front s.before ∧ s.before.step? h s.event = some s.after ∧ Run h s.after back d := by
  rw [List.append_cons] at hrun
  obtain ⟨m, hfront, hback⟩ := run_append_iff.mp hrun
  generalize hsteps : front ++ [s] = steps at hfront
  cases hfront with
  | start => simp at hsteps
  | step event hfront hstep =>
    obtain ⟨rfl, rfl⟩ := List.append_inj' hsteps rfl |>.imp_right List.singleton_inj.mp
    exact ⟨hfront, hstep, hback⟩

/-- The run of some events, if each of them can happen. -/
def trace? (h : Handler η) (c : Compilation η) :
    List Event → Option (List (Step η) × Compilation η)
  | [] => some ([], c)
  | event :: more =>
    (c.step? h event).bind fun e => (trace? h e more).map fun run => (⟨c, event, e⟩ :: run.1, run.2)

theorem run_of_trace {h : Handler η} {c d : Compilation η} {events : List Event}
    {steps : List (Step η)} (htrace : trace? h c events = some (steps, d)) : Run h c steps d := by
  induction events generalizing c steps with
  | nil =>
    obtain ⟨rfl, rfl⟩ := Prod.mk.inj (Option.some.inj htrace)
    exact .start
  | cons event more ih =>
    obtain ⟨e, hstep, htrace⟩ := Option.bind_eq_some_iff.mp htrace
    obtain ⟨⟨steps', d'⟩, hmore, heq⟩ := Option.map_eq_some_iff.mp htrace
    obtain ⟨rfl, rfl⟩ := Prod.mk.inj heq
    exact (Run.step event .start hstep).append (ih hmore)

def bareFiles : FileTree where
  entries := []
  current := []

def outputPath : Path :=
  "/out.js".toList

/-- A system that can watch every file, and on which every program does that. -/
def running (program : Activity) : Host where
  watchFault? := fun _ _ => none
  start := fun _ _ => .ok program

def compilerCall : Invocation :=
  ⟨"tsc".toList, ["--outFile".toList, outputPath]⟩

/-- A program that writes a text to a file, if it can, before it goes on. -/
def writing (path : Path) (text : Text) (next : Activity) : Activity :=
  .change (fun fs => (fs.writeFile path (Text.encode text)).toOption.getD fs) fun _ => next

/-! ## What happens along a run -/

namespace Step

/-- The new text of the output that a program wrote. -/
def emitted? (s : Step η) : Option Text :=
  match s.event with
  | .compilerActs | .otherActs _ =>
    if s.after.outputText? = s.before.outputText? then none else s.after.outputText?
  | _ => none

/-- What the debouncer read that it had not read last. -/
def noticed? (s : Step η) : Option Text :=
  match s.event with
  | .read => s.after.debouncer.outgoing?
  | _ => none

def sent? (s : Step η) : Option Text :=
  match s.event with
  | .send => s.before.debouncer.outgoing?
  | _ => none

/-- The content that was handed over. -/
def handed? (s : Step η) : Option Text :=
  match s.event with
  | .content => s.before.contents.head?
  | _ => none

/-- The line that was handed over. -/
def told? (s : Step η) : Option Text :=
  match s.event with
  | .line => s.before.lines.head?
  | _ => none

/-- The end of the compiler that was noted. -/
def exit? (s : Step η) : Option ExitStatus :=
  match s.event with
  | .exit => s.before.compiler.status?
  | _ => none

end Step

end AmdBundle.Compilation

namespace AmdBundle.Clock
open Compilation (Event Run)
variable {η : Type}

/-! ## Compiles in time -/

theorem mem_of_first {items : List (Nat × Event × Compilation η)}
    {item : Nat × Event × Compilation η} (h : first items = some item) : item ∈ items := by
  induction items generalizing item with
  | nil => cases h
  | cons next items ih =>
    rw [first] at h
    split at h
    · obtain rfl := Option.some.inj h
      exact List.mem_cons_self
    · next other hother =>
      split at h
      · obtain rfl := Option.some.inj h
        exact List.mem_cons_self
      · obtain rfl := Option.some.inj h
        exact List.mem_cons_of_mem _ (ih hother)

/-- What is due next is a step of the compile. -/
theorem step_of_next? {h : Handler η} {k : Clock η} {time : Nat} {event : Event}
    {c : Compilation η} (hnext : k.next? h = some (time, event, c)) :
    k.compilation.step? h event = some c := by
  obtain ⟨item, -, hitem⟩ := List.mem_filterMap.mp (mem_of_first hnext)
  obtain ⟨next, hstep, heq⟩ := Option.map_eq_some_iff.mp hitem
  obtain ⟨-, heq⟩ := Prod.mk.inj heq
  obtain ⟨rfl, rfl⟩ := Prod.mk.inj heq
  exact hstep

theorem compilation_advance (t : Timing) (k : Clock η) (time : Nat) (event : Event)
    (c : Compilation η) : (advance t k time event c).compilation = c := by
  have hact : ∀ (length : Nat) (k : Clock η), (afterAct length k event).compilation =
      k.compilation := by
    cases event <;> exact fun _ _ => rfl
  have hhearing : ∀ k : Clock η, (afterHearing t k event).compilation = k.compilation := by
    cases event <;> exact fun _ => rfl
  have hdriving : ∀ k : Clock η, (afterDriving t k event).compilation = k.compilation := by
    intro k
    unfold afterDriving
    split <;> rfl
  rw [advance, hdriving, hhearing]
  exact hact _ _

theorem exists_run_runFor (t : Timing) (h : Handler η) (count : Nat) (k : Clock η) :
    ∃ steps, Run h k.compilation steps (runFor t h count k).compilation := by
  induction count generalizing k with
  | zero => exact ⟨[], .start⟩
  | succ count ih =>
    rw [runFor]
    split
    · exact ⟨[], .start⟩
    · split
      · exact ⟨[], .start⟩
      · next time event c hnext =>
        obtain ⟨steps, hrun⟩ := ih (advance t k time event c)
        rw [compilation_advance] at hrun
        exact ⟨_, (Run.step event .start (step_of_next? hnext)).append hrun⟩

/-- **A compile in time is a run.** -/
theorem exists_run (t : Timing) (h : Handler η) (c : Compilation η) :
    ∃ steps, Run h c steps (run t h c) :=
  exists_run_runFor t h stepLimit (start c)

/-- A compile that is through stays as it is. -/
theorem run_of_result (t : Timing) (h : Handler η) {c : Compilation η}
    (hresult : c.driver.result?.isSome = true) : run t h c = c := by
  have hlimit : stepLimit = 999999 + 1 := rfl
  have hstop : (c.driver.result?.isSome || c.hasPanicked h) = true := by
    rw [hresult, Bool.true_or]
  rw [run, hlimit, runFor, if_pos (by exact hstop)]
  rfl

end AmdBundle.Clock
