import AmdBundle.Compiler.Driver

/-!
# What a driver keeps

* `Driver.Move` : all that one step of a driver can do; `Driver.move_of_step`;
* `Driver.contents_of_step` : the contents are counted, and nothing else is;
* `Driver.Agrees` : the phase follows from the ends of the compiler that were noted and from that
  count; `Driver.agrees_of_step` : so it stays;
* `Driver.phase_of_mem_exits`, `Driver.phase_of_result_ok` : what follows for the outcome;
* `Driver.IsLate` : the compiler ended well before any content; `Driver.isLate_of_step` : then at most
  one content is counted; `Driver.awaits_of_step`.
-/

set_option autoImplicit false

namespace AmdBundle

theorem ExitStatus.isSuccess_iff {s : ExitStatus} : s.isSuccess = true ↔ s = .code 0 := by
  rw [isSuccess, beq_iff_eq]

namespace Driver

/-- What a step of a driver can do. -/
inductive Move : Driver → Event → Driver → Prop where
  | starts (n : Nat) : Move ⟨.ready, n⟩ .started ⟨.running, n⟩
  | breaksEarly (e : CompileError) (n : Nat) : Move ⟨.ready, n⟩ (.broken e) ⟨.failed e, n⟩
  | breaks (e : CompileError) (n : Nat) : Move ⟨.running, n⟩ (.broken e) ⟨.failed e, n⟩
  | counts (n : Nat) : Move ⟨.running, n⟩ .content ⟨.running, n + 1⟩
  | settles (n : Nat) : Move ⟨.settling, n⟩ .content ⟨.succeeded ⟨n + 1, false⟩, n + 1⟩
  | listens (n : Nat) : Move ⟨.running, n⟩ .line ⟨.running, n⟩
  | listensLate (status : ExitStatus) (n : Nat) :
      Move ⟨.draining status, n⟩ .line ⟨.draining status, n⟩
  | ends (status : ExitStatus) (n : Nat) :
      Move ⟨.running, n⟩ (.exited status) ⟨.draining status, n⟩
  | fails {status : ExitStatus} (hstatus : status.isSuccess = false) (n : Nat) :
      Move ⟨.draining status, n⟩ .drained ⟨.failed (.exit status.toInt), n⟩
  | succeeds {n : Nat} (hn : n ≠ 0) :
      Move ⟨.draining (.code 0), n⟩ .drained ⟨.succeeded ⟨n, false⟩, n⟩
  | awaits : Move ⟨.draining (.code 0), 0⟩ .drained ⟨.settling, 0⟩
  | waits (n : Nat) : Move ⟨.settling, n⟩ (.tick false) ⟨.settling, n⟩
  | givesUp (n : Nat) : Move ⟨.settling, n⟩ (.tick true) ⟨.succeeded ⟨n, true⟩, n⟩

theorem move_of_drained {status : ExitStatus} {n : Nat} :
    Move ⟨.draining status, n⟩ .drained ⟨afterExit status n, n⟩ := by
  rw [afterExit]
  split
  · next hstatus =>
    obtain rfl := ExitStatus.isSuccess_iff.mp hstatus
    split
    · next hn =>
      subst hn
      exact .awaits
    · next hn => exact .succeeds hn
  · next hstatus => exact .fails (by simpa using hstatus) n

theorem move_of_step {d e : Driver} {event : Event} (h : d.step? event = some e) :
    Move d event e := by
  obtain ⟨phase, n⟩ := d
  cases event with
  | started => cases phase <;> simp [step?] at h; exact h ▸ .starts n
  | broken cause =>
    cases phase <;> simp [step?] at h
    · exact h ▸ .breaksEarly cause n
    · exact h ▸ .breaks cause n
  | content =>
    cases phase <;> simp [step?] at h
    · exact h ▸ .counts n
    · exact h ▸ .settles n
  | line =>
    cases phase <;> simp [step?] at h
    · exact h ▸ .listens n
    · exact h ▸ .listensLate _ n
  | exited status => cases phase <;> simp [step?] at h; exact h ▸ .ends status n
  | drained => cases phase <;> simp [step?] at h; exact h ▸ move_of_drained
  | tick late =>
    cases phase <;> simp [step?] at h
    cases late with
    | false => exact h ▸ .waits n
    | true => exact h ▸ .givesUp n

/-! ## Counting -/

theorem contents_of_step {d e : Driver} {event : Event} (h : d.step? event = some e) :
    e.contents = d.contents + if event = .content then 1 else 0 := by
  cases move_of_step h <;> simp

theorem phase_of_content {d e : Driver} (h : d.step? .content = some e) :
    d.phase = .running ∨ d.phase = .settling := by
  cases move_of_step h with
  | counts => exact .inl rfl
  | settles => exact .inr rfl

/-- A driver that is through takes no step. -/
theorem step?_of_result {d : Driver} (h : d.result?.isSome = true) (event : Event) :
    d.step? event = none := by
  rw [Option.eq_none_iff_forall_ne_some]
  intro e hstep
  cases move_of_step hstep <;> cases h

/-! ## Phases -/

/-- The end of the compiler that an event tells. -/
def Event.exit? : Event → Option ExitStatus
  | .exited status => some status
  | _ => none

/-- The phase follows from the ends of the compiler that were noted and from the number of
contents. -/
def Agrees (exits : List ExitStatus) (d : Driver) : Prop :=
  match d.phase with
  | .ready | .running => exits = []
  | .draining status => exits = [status]
  | .settling => exits = [.code 0] ∧ d.contents = 0
  | .succeeded outcome =>
    exits = [.code 0] ∧ outcome.contents = d.contents ∧
      (outcome.byTimeout = true ↔ outcome.contents = 0)
  | .failed (.exit code) =>
    ∃ status, exits = [status] ∧ status.isSuccess = false ∧ code = status.toInt
  | .failed _ => exits = []

theorem agrees_of_step {d e : Driver} {event : Event} {exits : List ExitStatus}
    (hagrees : d.Agrees exits) (hcause : ∀ code, event ≠ .broken (.exit code))
    (h : d.step? event = some e) : e.Agrees (exits ++ event.exit?.toList) := by
  cases move_of_step h with
  | breaksEarly cause =>
    cases cause with
    | exit code => exact absurd rfl (hcause code)
    | spawn => simpa [Agrees, Event.exit?] using hagrees
    | watch => simpa [Agrees, Event.exit?] using hagrees
  | breaks cause =>
    cases cause with
    | exit code => exact absurd rfl (hcause code)
    | spawn => simpa [Agrees, Event.exit?] using hagrees
    | watch => simpa [Agrees, Event.exit?] using hagrees
  | starts => simpa [Agrees, Event.exit?] using hagrees
  | counts => simpa [Agrees, Event.exit?] using hagrees
  | settles => simpa [Agrees, Event.exit?] using hagrees.1
  | listens => simpa [Agrees, Event.exit?] using hagrees
  | listensLate => simpa [Agrees, Event.exit?] using hagrees
  | ends => simpa [Agrees, Event.exit?] using hagrees
  | fails hstatus => simpa [Agrees, Event.exit?] using ⟨_, hagrees, hstatus, rfl⟩
  | succeeds hn => simpa [Agrees, Event.exit?, hn] using hagrees
  | awaits => simpa [Agrees, Event.exit?] using hagrees
  | waits => simpa [Agrees, Event.exit?] using hagrees
  | givesUp => simpa [Agrees, Event.exit?] using hagrees

theorem phase_of_mem_exits {d : Driver} {exits : List ExitStatus} {status : ExitStatus}
    (hagrees : d.Agrees exits) (hmem : status ∈ exits) (hstatus : status.isSuccess = false) :
    d.phase = .draining status ∨ d.phase = .failed (.exit status.toInt) := by
  have hcode : status ≠ .code 0 := by
    rintro rfl
    cases hstatus
  unfold Agrees at hagrees
  split at hagrees
  · simp [hagrees] at hmem
  · simp [hagrees] at hmem
  · next other hphase =>
    obtain rfl : status = other := by simpa [hagrees] using hmem
    exact .inl hphase
  · simp [hagrees.1, hcode] at hmem
  · simp [hagrees.1, hcode] at hmem
  · next code hphase =>
    obtain ⟨other, rfl, -, rfl⟩ := hagrees
    obtain rfl := List.mem_singleton.mp hmem
    exact .inr hphase
  · simp [hagrees] at hmem

theorem phase_of_result_ok {d : Driver} {outcome : CompileOutcome}
    (h : d.result? = some (.ok outcome)) : d.phase = .succeeded outcome := by
  obtain ⟨phase, n⟩ := d
  cases phase <;> simp_all [result?]

theorem state_eq_done_iff {d : Driver} :
    d.state = .done ↔ ∃ outcome, d.result? = some (.ok outcome) := by
  obtain ⟨phase, n⟩ := d
  cases phase <;> simp [state, result?]

theorem state_eq_failed_iff {d : Driver} : d.state = .failed ↔ ∃ e, d.result? = some (.error e) := by
  obtain ⟨phase, n⟩ := d
  cases phase <;> simp [state, result?]

/-- The compiler ended well before any content was counted. -/
def IsLate (d : Driver) : Prop :=
  d.phase = .settling ∧ d.contents = 0 ∨ ∃ outcome, d.phase = .succeeded outcome ∧ d.contents ≤ 1

theorem isLate_of_step {d e : Driver} {event : Event} (hlate : d.IsLate)
    (h : d.step? event = some e) : e.IsLate := by
  cases move_of_step h <;> simp_all [IsLate]

/-- Late output is awaited only behind a compiler that ended well, before any content. -/
theorem awaits_of_step {d e : Driver} {event : Event} (hbefore : d.state ≠ .awaitingSettle)
    (hafter : e.state = .awaitingSettle) (h : d.step? event = some e) :
    d = ⟨.draining (.code 0), 0⟩ ∧ e = ⟨.settling, 0⟩ := by
  cases move_of_step h with
  | awaits => exact ⟨rfl, rfl⟩
  | waits => exact absurd rfl hbefore
  | _ => cases hafter

end Driver
end AmdBundle
