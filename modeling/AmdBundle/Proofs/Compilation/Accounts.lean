import AmdBundle.Compilation.Record
import AmdBundle.Proofs.Compilation.Run
import AmdBundle.Proofs.Compiler.Driver
import AmdBundle.Proofs.Lists
import AmdBundle.Proofs.Watch.Debouncer
import Mathlib

/-!
# What a compile accounts for

Programs, debouncer and driver take their steps in any order. The driver counts what it hands over,
and its outcome follows from that count and from the end of the compiler.

* `Change.queue`, `Change.noticed`, `Change.counted`, `Change.agrees` : what one step preserves;
* `Accounts` : what holds all along a run; `accounts_of_run`;
* `Starts` : the ways in which a compile starts;
* `AwaitsLate` : what late output means; `Rests` : what follows the end;
* `accounted` : what a compile accounts for.
-/

set_option autoImplicit false

namespace AmdBundle.Compilation
variable {η : Type} {h : Handler η} {c d e : Compilation η} {event : Event}

/-! ## One step -/

/-- What is handed over leaves the queue at its front, and what is sent joins it at its end. -/
theorem Change.queue (hc : Change h c event e) :
    (Step.handed? ⟨c, event, e⟩).toList ++ e.contents =
      c.contents ++ (Step.sent? ⟨c, event, e⟩).toList := by
  cases hc with
  | acts hevent => cases hevent <;> simp [Step.handed?, Step.sent?]
  | aside hevent => cases hevent <;> simp [Step.handed?, Step.sent?]
  | debounces hevent => cases hevent <;> simp [Step.handed?, Step.sent?]
  | sends houtgoing => simp [Step.handed?, Step.sent?, houtgoing]
  | hands hcontents => simp [Step.handed?, Step.sent?, hcontents]
  | works => simp [Step.handed?, Step.sent?]
  | isThrough => simp [Step.handed?, Step.sent?]
  | tells => simp [Step.handed?, Step.sent?]
  | drives hevent => cases hevent <;> simp [Step.handed?, Step.sent?]

/-- What the debouncer reads and had not read last is what it sends next. -/
theorem Change.noticed (hc : Change h c event e) :
    (Step.sent? ⟨c, event, e⟩).toList ++ e.debouncer.outgoing?.toList =
      c.debouncer.outgoing?.toList ++ (Step.noticed? ⟨c, event, e⟩).toList := by
  cases hc with
  | acts hevent => cases hevent <;> simp [Step.sent?, Step.noticed?]
  | aside hevent => cases hevent <;> simp [Step.sent?, Step.noticed?]
  | debounces hevent _ hstep =>
    cases hevent with
    | read => simp [Step.sent?, Step.noticed?, Debouncer.outgoing?_before hstep]
    | _ =>
      simp [Step.sent?, Step.noticed?, Debouncer.outgoing?_before hstep,
        Debouncer.outgoing?_after hstep]
  | sends _ _ hstep => simp [Step.sent?, Step.noticed?, Debouncer.outgoing?_after hstep]
  | hands => simp [Step.sent?, Step.noticed?]
  | works => simp [Step.sent?, Step.noticed?]
  | isThrough => simp [Step.sent?, Step.noticed?]
  | tells => simp [Step.sent?, Step.noticed?]
  | drives hevent => cases hevent <;> simp [Step.sent?, Step.noticed?]

/-- A content that was handed over is counted once it has been handled. -/
theorem Change.counted (hc : Change h c event e) :
    e.driver.contents + e.isHandling.toNat =
      c.driver.contents + c.isHandling.toNat + (Step.handed? ⟨c, event, e⟩).toList.length := by
  cases hc with
  | acts hevent => cases hevent <;> simp [Step.handed?]
  | aside hevent => cases hevent <;> simp [Step.handed?]
  | debounces hevent => cases hevent <;> simp [Step.handed?]
  | sends => simp [Step.handed?]
  | hands hcontents hidle => simp [Step.handed?, hcontents, hidle]
  | works => simp [Step.handed?]
  | isThrough hhandling _ hstep => simp [Step.handed?, hhandling, Driver.contents_of_step hstep]
  | tells _ _ hstep => simp [Step.handed?, Driver.contents_of_step hstep]
  | drives hevent _ hstep =>
    cases hevent <;> simp [Step.handed?, Driver.contents_of_step hstep]

/-- A driver that waits for a content to be handled looks for contents. -/
def Accepts (c : Compilation η) : Prop :=
  c.isHandling = true → c.driver.phase = .running ∨ c.driver.phase = .settling

theorem Change.accepts (hc : Change h c event e) (haccepts : c.Accepts) : e.Accepts := by
  cases hc with
  | acts => exact haccepts
  | aside => exact haccepts
  | debounces => exact haccepts
  | sends => exact haccepts
  | hands _ _ hstep => exact fun _ => Driver.phase_of_content hstep
  | works => exact haccepts
  | isThrough => exact nofun
  | tells _ hidle => exact fun hhandling => by simp [hidle] at hhandling
  | drives _ hidle => exact fun hhandling => by simp [hidle] at hhandling

theorem Change.agrees {exits : List ExitStatus} (hc : Change h c event e)
    (hagrees : c.driver.Agrees exits) :
    e.driver.Agrees (exits ++ (Step.exit? ⟨c, event, e⟩).toList) := by
  cases hc with
  | acts hevent => cases hevent <;> simpa [Step.exit?] using hagrees
  | aside hevent => cases hevent <;> simpa [Step.exit?] using hagrees
  | debounces hevent => cases hevent <;> simpa [Step.exit?] using hagrees
  | sends => simpa [Step.exit?] using hagrees
  | hands => simpa [Step.exit?] using hagrees
  | works => simpa [Step.exit?] using hagrees
  | isThrough _ _ hstep => simpa [Step.exit?, Driver.Event.exit?] using Driver.agrees_of_step hagrees (by simp) hstep
  | tells _ _ hstep => simpa [Step.exit?, Driver.Event.exit?] using Driver.agrees_of_step hagrees (by simp) hstep
  | drives hevent _ hstep =>
    have hnext := Driver.agrees_of_step hagrees (by cases hevent <;> simp) hstep
    cases hevent with
    | exit hstatus => simpa [Step.exit?, hstatus, Driver.Event.exit?] using hnext
    | lost => exact hnext
    | drained => exact hnext
    | tick => exact hnext

/-- The output is watched until the driver is through. -/
def IsWatched (c : Compilation η) : Prop :=
  c.watched = none ↔ c.driver.result?.isSome = true

theorem isWatched_of_driver {driver' : Driver} {step : Driver.Event}
    (hwatched : c.IsWatched) (hstep : c.driver.step? step = some driver') :
    watchedBy driver' c.watched = none ↔ driver'.result?.isSome = true := by
  rw [watchedBy]
  split
  · next hresult => simp [hresult]
  · next hresult =>
    have hopen : ¬ c.driver.result?.isSome = true := fun hthrough => by
      rw [Driver.step?_of_result hthrough] at hstep
      cases hstep
    simp [hresult, hwatched.not.mpr hopen]

theorem Change.isWatched (hc : Change h c event e) (hwatched : c.IsWatched) : e.IsWatched := by
  cases hc with
  | acts => exact hwatched
  | aside => exact hwatched
  | debounces => exact hwatched
  | sends => exact hwatched
  | hands => exact hwatched
  | works => exact hwatched
  | isThrough _ _ hstep => exact isWatched_of_driver hwatched hstep
  | tells _ _ hstep => exact isWatched_of_driver hwatched hstep
  | drives _ _ hstep => exact isWatched_of_driver hwatched hstep

/-! ## Starts -/

section
variable {host : Host} {files made : FileTree} {invocation : Invocation} {outFile : Path}
  {watched : Location} {kept : η}

/-- How a compile starts: it fails at once, or its output is watched and its compiler runs. -/
inductive Starts (host : Host) (files : FileTree) (invocation : Invocation) (outFile : Path) (kept : η) :
    Compilation η → Prop where
  | unprovided {made : FileTree} {reason : String}
      (hprovision : files.provision outFile = (made, .error reason)) :
      Starts host files invocation outFile kept
        { ready made kept with driver := ⟨.failed (.watch reason), 0⟩ }
  | unwatched {made : FileTree} {watched : Location} {reason : String}
      (hprovision : files.provision outFile = (made, .ok watched))
      (hwatch : host.watchFault? made watched = some reason) :
      Starts host files invocation outFile kept
        { ready made kept with driver := ⟨.failed (.watch reason), 0⟩ }
  | unstarted {made : FileTree} {watched : Location} {cause : SystemError}
      (hprovision : files.provision outFile = (made, .ok watched))
      (hwatch : host.watchFault? made watched = none)
      (hcompiler : host.start invocation made = .error cause) :
      Starts host files invocation outFile kept
        { ready made kept with driver := ⟨.failed (.spawn cause), 0⟩ }
  | runs {made : FileTree} {watched : Location} {running : Activity}
      (hprovision : files.provision outFile = (made, .ok watched))
      (hwatch : host.watchFault? made watched = none)
      (hcompiler : host.start invocation made = .ok running) :
      Starts host files invocation outFile kept
        { ready made kept with
          watched := some watched, compiler := running, driver := ⟨.running, 0⟩ }

theorem start_of_unprovided {reason : String}
    (hprovision : files.provision outFile = (made, .error reason)) (host : Host)
    (invocation : Invocation) (kept : η) :
    start host files invocation outFile kept =
      { ready made kept with driver := ⟨.failed (.watch reason), 0⟩ } := by
  rw [start, hprovision]
  rfl

theorem start_of_unwatched {reason : String}
    (hprovision : files.provision outFile = (made, .ok watched))
    (hwatch : host.watchFault? made watched = some reason) (invocation : Invocation) (kept : η) :
    start host files invocation outFile kept =
      { ready made kept with driver := ⟨.failed (.watch reason), 0⟩ } := by
  rw [start, hprovision]
  simp only [hwatch]
  rfl

theorem start_of_unstarted {cause : SystemError}
    (hprovision : files.provision outFile = (made, .ok watched))
    (hwatch : host.watchFault? made watched = none)
    (hcompiler : host.start invocation made = .error cause) (kept : η) :
    start host files invocation outFile kept =
      { ready made kept with driver := ⟨.failed (.spawn cause), 0⟩ } := by
  rw [start, hprovision]
  simp only [hwatch, hcompiler]
  rfl

theorem start_of_running {running : Activity}
    (hprovision : files.provision outFile = (made, .ok watched))
    (hwatch : host.watchFault? made watched = none)
    (hcompiler : host.start invocation made = .ok running) (kept : η) :
    start host files invocation outFile kept =
      { ready made kept with
        watched := some watched, compiler := running, driver := ⟨.running, 0⟩ } := by
  rw [start, hprovision]
  simp only [hwatch, hcompiler]
  rfl

theorem starts_start (host : Host) (files : FileTree) (invocation : Invocation) (outFile : Path)
    (kept : η) :
    Starts host files invocation outFile kept (start host files invocation outFile kept) := by
  cases hprovision : files.provision outFile with
  | mk made outcome =>
    cases outcome with
    | error reason =>
      rw [start_of_unprovided hprovision]
      exact .unprovided hprovision
    | ok watched =>
      cases hwatch : host.watchFault? made watched with
      | some reason =>
        rw [start_of_unwatched hprovision hwatch]
        exact .unwatched hprovision hwatch
      | none =>
        cases hcompiler : host.start invocation made with
        | error cause =>
          rw [start_of_unstarted hprovision hwatch hcompiler]
          exact .unstarted hprovision hwatch hcompiler
        | ok running =>
          rw [start_of_running hprovision hwatch hcompiler]
          exact .runs hprovision hwatch hcompiler

end

/-! ## Runs -/

/-- What holds all along a run. -/
structure Accounts (steps : List (Step η)) (c : Compilation η) : Prop where
  queue : steps.filterMap Step.handed? ++ c.contents = steps.filterMap Step.sent?
  noticed : steps.filterMap Step.sent? ++ c.debouncer.outgoing?.toList =
    steps.filterMap Step.noticed?
  counted : c.driver.contents + c.isHandling.toNat = (steps.filterMap Step.handed?).length
  accepts : c.Accepts
  agrees : c.driver.Agrees (steps.filterMap Step.exit?)
  isWatched : c.IsWatched

section
variable {host : Host} {files : FileTree} {invocation : Invocation} {outFile : Path} {kept : η}
  {steps : List (Step η)}

theorem accounts_start (hstart : Starts host files invocation outFile kept c) : Accounts [] c := by
  have haccepts : c.Accepts := by
    intro hhandling
    cases hstart <;> cases hhandling
  cases hstart <;> exact ⟨rfl, rfl, rfl, haccepts, rfl, by simp [IsWatched, ready, Driver.result?]⟩

theorem accounts_step (haccounts : Accounts steps c)
    (hc : Change h c event e) : Accounts (steps ++ [⟨c, event, e⟩]) e := by
  have hqueue := hc.queue
  have hnoticed := hc.noticed
  have hcounted := hc.counted
  have hagrees := hc.agrees haccounts.agrees
  refine ⟨?_, ?_, ?_, hc.accepts haccounts.accepts, ?_, hc.isWatched haccounts.isWatched⟩
  · rw [Lists.filterMap_concat, Lists.filterMap_concat, List.append_assoc, hqueue,
      ← List.append_assoc, haccounts.queue]
  · rw [Lists.filterMap_concat, Lists.filterMap_concat, List.append_assoc, hnoticed,
      ← List.append_assoc, haccounts.noticed]
  · rw [Lists.filterMap_concat, List.length_append, hcounted, haccounts.counted]
  · rwa [Lists.filterMap_concat]

theorem accounts_of_run (haccounts : Accounts [] c) (hrun : Run h c steps d) : Accounts steps d := by
  induction hrun with
  | start => exact haccounts
  | step event _ hstep ih => exact accounts_step ih (change_of_step hstep)

theorem Run.accounts (hrun : Run h (Compilation.start host files invocation outFile kept) steps d) :
    Accounts steps d :=
  accounts_of_run (accounts_start (starts_start host files invocation outFile kept)) hrun

end

/-! ## Behind the end -/

/-- The driver rests, and nothing is sent or handed over. -/
structure Rests (c : Compilation η) (steps : List (Step η)) (d : Compilation η) : Prop where
  driver : d.driver = c.driver
  kept : d.kept = c.kept
  noContent : steps.filterMap Step.handed? = []
  noLine : steps.filterMap Step.told? = []
  nothingSent : steps.filterMap Step.sent? = []

theorem Accepts.isIdle (haccepts : c.Accepts) (hresult : c.driver.result?.isSome = true) :
    c.isHandling = false := by
  by_contra hhandling
  rcases haccepts (by simpa using hhandling) with hphase | hphase <;>
    simp [Driver.result?, hphase] at hresult

/-- Once the driver is through, a step changes neither it nor what is kept. -/
theorem Change.rests (hc : Change h c event e) (haccepts : c.Accepts) (hwatched : c.IsWatched)
    (hresult : c.driver.result?.isSome = true) : Rests c [⟨c, event, e⟩] e := by
  have hstop := Driver.step?_of_result hresult
  have hidle := haccepts.isIdle hresult
  have hunwatched : ¬ c.watched.isSome = true := by simp [hwatched.mpr hresult]
  cases hc with
  | acts hevent => cases hevent <;> exact ⟨rfl, rfl, rfl, rfl, rfl⟩
  | aside hevent => cases hevent <;> exact ⟨rfl, rfl, rfl, rfl, rfl⟩
  | debounces _ hsome => exact absurd hsome hunwatched
  | sends _ hsome => exact absurd hsome hunwatched
  | hands _ _ hstep => simp [hstop] at hstep
  | works hhandling => simp [hidle] at hhandling
  | isThrough hhandling => simp [hidle] at hhandling
  | tells _ _ hstep => simp [hstop] at hstep
  | drives _ _ hstep => simp [hstop] at hstep

theorem rests_of_run {steps : List (Step η)} (haccepts : c.Accepts) (hwatched : c.IsWatched)
    (hresult : c.driver.result?.isSome = true) (hrun : Run h c steps d) :
    Rests c steps d ∧ d.Accepts ∧ d.IsWatched := by
  induction hrun with
  | start => exact ⟨⟨rfl, rfl, rfl, rfl, rfl⟩, haccepts, hwatched⟩
  | step event _ hstep ih =>
    obtain ⟨hrests, haccepts, hwatched⟩ := ih
    have hc := change_of_step hstep
    have hnext := hc.rests haccepts hwatched (hrests.driver ▸ hresult)
    refine ⟨⟨hnext.driver.trans hrests.driver, hnext.kept.trans hrests.kept, ?_, ?_, ?_⟩,
      hc.accepts haccepts, hc.isWatched hwatched⟩
    · rw [List.filterMap_append, hrests.noContent, hnext.noContent, List.append_nil]
    · rw [List.filterMap_append, hrests.noLine, hnext.noLine, List.append_nil]
    · rw [List.filterMap_append, hrests.nothingSent, hnext.nothingSent, List.append_nil]

/-! ## Late output -/

theorem Change.isLate (hc : Change h c event e) (hlate : c.driver.IsLate) : e.driver.IsLate := by
  cases hc with
  | acts => exact hlate
  | aside => exact hlate
  | debounces => exact hlate
  | sends => exact hlate
  | hands => exact hlate
  | works => exact hlate
  | isThrough _ _ hstep => exact Driver.isLate_of_step hlate hstep
  | tells _ _ hstep => exact Driver.isLate_of_step hlate hstep
  | drives _ _ hstep => exact Driver.isLate_of_step hlate hstep

theorem isLate_of_run {steps : List (Step η)} (hlate : c.driver.IsLate) (hrun : Run h c steps d) :
    d.driver.IsLate := by
  induction hrun with
  | start => exact hlate
  | step event _ hstep ih => exact (change_of_step hstep).isLate ih

theorem Change.awaits (hc : Change h c event e) (hbefore : c.driver.state ≠ .awaitingSettle)
    (hafter : e.driver.state = .awaitingSettle) :
    c.driver = ⟨.draining (.code 0), 0⟩ ∧ e.driver = ⟨.settling, 0⟩ := by
  cases hc with
  | isThrough _ _ hstep => exact Driver.awaits_of_step hbefore hafter hstep
  | tells _ _ hstep => exact Driver.awaits_of_step hbefore hafter hstep
  | drives _ _ hstep => exact Driver.awaits_of_step hbefore hafter hstep
  | _ => exact absurd hafter hbefore

/-- Late output is awaited once the compiler has ended well and nothing was handed over; then at
most one content is. -/
structure AwaitsLate (front back : List (Step η)) : Prop where
  exits : front.filterMap Step.exit? = [.code 0]
  noneBefore : front.filterMap Step.handed? = []
  atMostOne : (back.filterMap Step.handed?).length ≤ 1

theorem Accounts.awaitsLate {front back : List (Step η)} {s : Step η}
    (haccounts : Accounts [] c) (hrun : Run h c (front ++ s :: back) d)
    (hbefore : s.before.driver.state ≠ .awaitingSettle)
    (hafter : s.after.driver.state = .awaitingSettle) : AwaitsLate front back := by
  obtain ⟨hfront, hstep, hback⟩ := hrun.split
  have hpast := accounts_of_run haccounts hfront
  have hnow := accounts_of_run haccounts hrun
  obtain ⟨hdraining, hsettling⟩ := (change_of_step hstep).awaits hbefore hafter
  have hidle : s.before.isHandling = false := by
    by_contra hhandling
    simpa [hdraining] using hpast.accepts (by simpa using hhandling)
  have hnone : front.filterMap Step.handed? = [] := by
    rw [← List.length_eq_zero_iff, ← hpast.counted, hdraining, hidle]
    rfl
  refine ⟨by simpa [Driver.Agrees, hdraining] using hpast.agrees, hnone, ?_⟩
  have hlate := isLate_of_run (Or.inl (by simp [hsettling])) hback
  have htotal : (back.filterMap Step.handed?).length ≤ d.driver.contents + d.isHandling.toNat := by
    rw [hnow.counted]
    exact ((List.sublist_append_of_sublist_right (List.sublist_cons_self s back)).filterMap _).length_le
  rcases hlate with ⟨-, hzero⟩ | ⟨outcome, hphase, hone⟩
  · have := Bool.toNat_le d.isHandling
    omega
  · have hidle := hnow.accepts.isIdle (by simp [Driver.result?, hphase])
    rw [hidle] at htotal
    exact Nat.le_trans htotal hone

/-! ## The end -/

/-- The end of the compiler is the end of the compile, unless it ended well. -/
theorem Accounts.exit {steps : List (Step η)} (haccounts : Accounts steps d) {status : ExitStatus}
    (hmem : status ∈ steps.filterMap Step.exit?) (hstatus : status.isSuccess = false) :
    d.driver.result? = some (.error (.exit status.toInt)) ∨
      d.driver.result? = none ∧ ∃ e, d.step? h .drained = some e ∧
        e.driver.result? = some (.error (.exit status.toInt)) := by
  rcases Driver.phase_of_mem_exits haccounts.agrees hmem hstatus with hphase | hphase
  · right
    have hidle : d.isHandling = false := by
      by_contra hhandling
      simpa [hphase] using haccounts.accepts (by simpa using hhandling)
    obtain ⟨e, hstep, hdriver⟩ : ∃ e, d.step? h .drained = some e ∧
        e.driver = ⟨.failed (.exit status.toInt), d.driver.contents⟩ := by
      simp [step?, drive, hidle, Driver.step?, hphase, Driver.afterExit, hstatus]
    exact ⟨by simp [Driver.result?, hphase], e, hstep, by simp [Driver.result?, hdriver]⟩
  · exact .inl (by simp [Driver.result?, hphase])

theorem Accounts.outcome {steps : List (Step η)} (haccounts : Accounts steps d)
    {outcome : CompileOutcome} (hresult : d.driver.result? = some (.ok outcome)) :
    outcome.contents = (steps.filterMap Step.handed?).length ∧
      (outcome.byTimeout = true ↔ outcome.contents = 0) := by
  have hidle := haccounts.accepts.isIdle (by simp [hresult])
  have hagrees := haccounts.agrees
  simp only [Driver.Agrees, Driver.phase_of_result_ok hresult] at hagrees
  refine ⟨?_, hagrees.2.2⟩
  rw [hagrees.2.1, ← haccounts.counted, hidle]
  rfl

/-- The compile has failed before its handler was told anything. -/
structure FailsAtOnce (e : CompileError) (kept : η) (steps : List (Step η)) (d : Compilation η) :
    Prop where
  result : d.driver.result? = some (.error e)
  kept : d.kept = kept
  noContent : steps.filterMap Step.handed? = []
  noLine : steps.filterMap Step.told? = []

theorem failsAtOnce_of_run {steps : List (Step η)} {e : CompileError} (haccounts : Accounts [] c)
    (hdriver : c.driver = ⟨.failed e, 0⟩) (hrun : Run h c steps d) :
    FailsAtOnce e c.kept steps d := by
  obtain ⟨hrests, -⟩ := rests_of_run haccounts.accepts haccounts.isWatched
    (by simp [hdriver, Driver.result?]) hrun
  exact ⟨by simp [hrests.driver, hdriver, Driver.result?], hrests.kept, hrests.noContent,
    hrests.noLine⟩

/-- What a compile accounts for, whatever its handler does and whoever takes the next step. -/
structure IsAccounted (h : Handler η) (host : Host) (files : FileTree) (invocation : Invocation)
    (outFile : Path) (kept : η) (steps : List (Step η)) (d : Compilation η) : Prop where
  /-- The contents that were handed over are the first of those that were sent. -/
  queue : steps.filterMap Step.handed? ++ d.contents = steps.filterMap Step.sent?
  outcome : ∀ outcome, d.driver.result? = some (.ok outcome) →
    outcome.contents = (steps.filterMap Step.handed?).length ∧
      (outcome.byTimeout = true ↔ outcome.contents = 0)
  late : ∀ front s back, steps = front ++ s :: back → s.before.driver.state ≠ .awaitingSettle →
    s.after.driver.state = .awaitingSettle → AwaitsLate front back
  /-- A compiler that does not end well makes the compile fail once its lines have been read. -/
  exit : ∀ status ∈ steps.filterMap Step.exit?, status.isSuccess = false →
    d.driver.result? = some (.error (.exit status.toInt)) ∨
      d.driver.result? = none ∧ ∃ e, d.step? h .drained = some e ∧
        e.driver.result? = some (.error (.exit status.toInt))
  unprovided : ∀ made reason, files.provision outFile = (made, .error reason) →
    FailsAtOnce (.watch reason) kept steps d
  unwatched : ∀ made watched reason, files.provision outFile = (made, .ok watched) →
    host.watchFault? made watched = some reason → FailsAtOnce (.watch reason) kept steps d
  unstarted : ∀ made watched cause, files.provision outFile = (made, .ok watched) →
    host.watchFault? made watched = none → host.start invocation made = .error cause →
      FailsAtOnce (.spawn cause) kept steps d
  done_iff : d.driver.state = .done ↔ ∃ outcome, d.driver.result? = some (.ok outcome)
  failed_iff : d.driver.state = .failed ↔ ∃ e, d.driver.result? = some (.error e)
  watched : d.watched = none ↔ d.driver.result?.isSome = true
  /-- Nothing happens to the driver behind the end. -/
  rests : ∀ front s back, steps = front ++ s :: back → s.after.driver.result?.isSome = true →
    Rests s.after back d

/-- **What a compile accounts for.** -/
theorem accounted {host : Host} {files : FileTree} {invocation : Invocation} {outFile : Path} {kept : η}
    {steps : List (Step η)} (hrun : Run h (start host files invocation outFile kept) steps d) :
    IsAccounted h host files invocation outFile kept steps d := by
  have hstart := starts_start host files invocation outFile kept
  have haccounts := hrun.accounts
  refine ⟨haccounts.queue, fun _ => haccounts.outcome, ?_, fun _ => haccounts.exit, ?_, ?_, ?_, ?_, ?_,
    haccounts.isWatched, ?_⟩
  · rintro front s back rfl hbefore hafter
    exact (accounts_start hstart).awaitsLate hrun hbefore hafter
  · intro made reason hprovision
    rw [start_of_unprovided hprovision] at hstart hrun
    exact failsAtOnce_of_run (accounts_start hstart) rfl hrun
  · intro made watched reason hprovision hwatch
    rw [start_of_unwatched hprovision hwatch] at hstart hrun
    exact failsAtOnce_of_run (accounts_start hstart) rfl hrun
  · intro made watched cause hprovision hwatch hcompiler
    rw [start_of_unstarted hprovision hwatch hcompiler] at hstart hrun
    exact failsAtOnce_of_run (accounts_start hstart) rfl hrun
  · exact Driver.state_eq_done_iff
  · exact Driver.state_eq_failed_iff
  · rintro front s back rfl hresult
    obtain ⟨hfront, hstep, hback⟩ := hrun.split
    have hafter := accounts_step hfront.accounts (change_of_step hstep)
    exact (rests_of_run hafter.accepts hafter.isWatched hresult hback).1

/-! ### A late write -/

/-- A compiler that ends well at once, and beside it a program that writes the output. -/
def lateCompiler : Activity :=
  .start (writing outputPath "define".toList (.ended (.code 0))) (.ended (.code 0))

def lateStart : Compilation Record :=
  start (running lateCompiler) bareFiles compilerCall outputPath .empty

/-- The compiler has ended when the other program writes, and the driver waits for that. -/
def lateEvents : List Event :=
  [.compilerActs, .exit, .drained, .otherActs 0, .hear, .quiet, .read, .send, .content, .handle]

theorem accounted_late_write :
    ∃ steps d, Run Record.handler lateStart steps d ∧
      steps.filterMap Step.handed? = ["define".toList] ∧
      d.driver.result? = some (.ok ⟨1, false⟩) ∧
      IsAccounted Record.handler (running lateCompiler) bareFiles compilerCall outputPath .empty steps
        d := by
  obtain ⟨⟨steps, d⟩, htrace⟩ := Option.isSome_iff_exists.mp
    (show (trace? Record.handler lateStart lateEvents).isSome = true by cbv)
  have hhanded : (trace? Record.handler lateStart lateEvents).map
      (fun run => run.1.filterMap Step.handed?) = some ["define".toList] := by cbv
  have hresult : (trace? Record.handler lateStart lateEvents).map
      (fun run => run.2.driver.result?) = some (some (.ok ⟨1, false⟩)) := by cbv
  rw [htrace] at hhanded hresult
  have hrun := run_of_trace htrace
  exact ⟨steps, d, hrun, Option.some.inj hhanded, Option.some.inj hresult, accounted hrun⟩

end AmdBundle.Compilation
