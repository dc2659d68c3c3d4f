import AmdBundle.Proofs.Build.Feedback

/-!
# Settled output is delivered

Writes, reports of changes, quiet periods, reads and deliveries happen in any order. Changes that come
close together are heard of together, and a write may come between the end of a quiet period and the
read, or while the debouncer waits for room to send. Still, once nothing is left to be heard of, the
text that was sent last is the one that stands at the output.

* `Step.IsReported` : a change of the output is to be heard of; `le_unheard_of_step`;
* `IsCurrent` : the text that was read last is the one at the output, unless there is something to be
  heard of; `Change.isCurrent` : so it stays until something is heard of;
* `Notices` : what is noticed changes from one time to the next; `notices_of_run`;
* `settled_is_delivered` : what the debouncer has sent.
-/

set_option autoImplicit false

namespace AmdBundle.Compilation
variable {η : Type} {h : Handler η} {c d e : Compilation η} {event : Event}
  {steps : List (Step η)}

/-! ## What is to be heard of -/

theorem le_unheard_setFiles (c : Compilation η) (files : FileTree) :
    c.unheard ≤ (c.setFiles files).unheard := by
  unfold setFiles
  dsimp only
  split
  · exact Nat.le_succ c.unheard
  · exact Nat.le_refl c.unheard

/-- Only by hearing does there get less to be heard of. -/
theorem le_unheard_of_step (hstep : c.step? h event = some e) (hevent : event ≠ .hear) :
    c.unheard ≤ e.unheard := by
  cases change_of_step hstep with
  | acts hact =>
    cases hact with
    | compiler =>
      obtain ⟨effect, -, heq⟩ := Option.map_eq_some_iff.mp hstep
      exact congrArg unheard heq ▸ le_unheard_setFiles c effect.files
    | other i =>
      obtain ⟨effect, -, heq⟩ := Option.map_eq_some_iff.mp hstep
      exact congrArg unheard heq ▸
        le_unheard_setFiles { c with others := c.others.set i effect.next } effect.files
  | aside haside =>
    cases haside with
    | receive outlet =>
      obtain ⟨found, -, heq⟩ := Option.map_eq_some_iff.mp hstep
      cases outlet <;> exact (congrArg unheard heq).le
    | stir =>
      rw [step?] at hstep
      split at hstep
      · exact congrArg unheard (Option.some.inj hstep) ▸ Nat.le_succ c.unheard
      · cases hstep
    | lastLines =>
      rw [step?, closeLines] at hstep
      split at hstep
      · exact (congrArg unheard (Option.some.inj hstep)).le
      · cases hstep
  | debounces hdebounces =>
    cases hdebounces with
    | hear => exact absurd rfl hevent
    | quiet =>
      obtain ⟨-, debouncer, -, heq⟩ := debounce_eq_some hstep
      exact (congrArg unheard heq).ge
    | read =>
      obtain ⟨-, debouncer, -, heq⟩ := debounce_eq_some hstep
      exact (congrArg unheard heq).ge
  | works hhandling hwork =>
    rw [step?, goOn, if_pos hhandling, hwork] at hstep
    exact congrArg unheard (Option.some.inj hstep) ▸ le_unheard_setFiles c _
  | _ => exact Nat.le_refl c.unheard

/-- If the output has another text behind the step, then there is one change more to be heard of. -/
def Step.IsReported (s : Step η) : Prop :=
  s.after.outputText? = none ∨ s.after.outputText? = s.before.outputText? ∨
    s.before.unheard < s.after.unheard

instance (s : Step η) : Decidable s.IsReported :=
  inferInstanceAs (Decidable (_ ∨ _ ∨ _))

/-! ## What was read last -/

/-- If there is nothing to be heard of, then the text that was read last stands at the output. -/
def IsCurrent (c : Compilation η) : Prop :=
  c.unheard = 0 → ∀ text, c.outputText? = some text → text = c.debouncer.lastSeen

theorem isCurrent_of_reported (hcurrent : c.IsCurrent) (hle : c.unheard ≤ e.unheard)
    (hreported : Step.IsReported ⟨c, event, e⟩)
    (hlast : e.debouncer.lastSeen = c.debouncer.lastSeen) : e.IsCurrent := by
  intro hzero text htext
  have hbefore : c.outputText? = some text := by
    obtain hnone | hsame | hlt : e.outputText? = none ∨ e.outputText? = c.outputText? ∨
        c.unheard < e.unheard := hreported
    · simp [hnone] at htext
    · rw [← hsame, htext]
    · omega
  rw [hlast]
  exact hcurrent (by omega) text hbefore

/-- Only a read lets the debouncer have heard of nothing, and it makes it know the output. -/
theorem isCurrent_of_debounces {step : Debouncer.Event} {debouncer : Debouncer}
    (hevent : event.Debounces c.outputText? step) (hstep : c.debouncer.step? step = some debouncer)
    (hread : debouncer.HasRead) (unheard : Nat) :
    ({ c with debouncer, unheard } : Compilation η).IsCurrent := by
  intro _ text (htext : c.outputText? = some text)
  cases hevent with
  | hear => rcases Debouncer.hasRead_of_step hstep hread with ⟨_, h⟩ | ⟨h, -⟩ <;> cases h
  | quiet => rcases Debouncer.hasRead_of_step hstep hread with ⟨_, h⟩ | ⟨h, -⟩ <;> cases h
  | read =>
    rw [htext] at hstep
    exact (Debouncer.of_read_some hstep).1.symm

theorem Change.isCurrent (hc : Change h c event e) (hle : event ≠ .hear → c.unheard ≤ e.unheard)
    (hreported : Step.IsReported ⟨c, event, e⟩)
    (hcurrent : c.debouncer.HasRead → c.IsCurrent) : e.debouncer.HasRead → e.IsCurrent := by
  intro hread
  have hkept (hevent : event ≠ .hear) (hsame : e.debouncer = c.debouncer) : e.IsCurrent :=
    isCurrent_of_reported (hcurrent (hsame ▸ hread)) (hle hevent) hreported (by rw [hsame])
  cases hc with
  | acts hact => exact hkept (by cases hact <;> nofun) rfl
  | aside haside => exact hkept (by cases haside <;> nofun) rfl
  | debounces hdebounces _ hstep => exact isCurrent_of_debounces hdebounces hstep hread _
  | sends _ _ hstep =>
    obtain ⟨_, h⟩ | ⟨-, hbefore⟩ := Debouncer.hasRead_of_step hstep hread
    · cases h
    · exact isCurrent_of_reported (hcurrent hbefore) (hle nofun) hreported
        (Debouncer.lastSeen_of_step hstep nofun)
  | hands => exact hkept nofun rfl
  | works => exact hkept nofun rfl
  | isThrough => exact hkept nofun rfl
  | tells => exact hkept nofun rfl
  | drives hdrives => exact hkept (by cases hdrives <;> nofun) rfl

theorem isCurrent_of_run (hrun : Run h c steps d) (hreported : ∀ s ∈ steps, s.IsReported)
    (hcurrent : c.debouncer.HasRead → c.IsCurrent) : d.debouncer.HasRead → d.IsCurrent := by
  induction hrun with
  | start => exact hcurrent
  | step event _ hstep ih =>
    rw [List.forall_mem_append, List.forall_mem_singleton] at hreported
    exact (change_of_step hstep).isCurrent (le_unheard_of_step hstep) hreported.2 (ih hreported.1)

/-! ## What is noticed -/

/-- What is noticed is not what was read last before, and it is from then on. -/
theorem Change.lastSeen (hc : Change h c event e) :
    (∀ text, Step.noticed? ⟨c, event, e⟩ = some text → text ≠ c.debouncer.lastSeen) ∧
      e.debouncer.lastSeen = (Step.noticed? ⟨c, event, e⟩).getD c.debouncer.lastSeen := by
  have hsilent (hnone : Step.noticed? ⟨c, event, e⟩ = none)
      (hsame : e.debouncer.lastSeen = c.debouncer.lastSeen) :
      (∀ text, Step.noticed? ⟨c, event, e⟩ = some text → text ≠ c.debouncer.lastSeen) ∧
        e.debouncer.lastSeen = (Step.noticed? ⟨c, event, e⟩).getD c.debouncer.lastSeen := by
    simp [hnone, hsame]
  cases hc with
  | acts hact => exact hsilent (by cases hact <;> rfl) rfl
  | aside haside => exact hsilent (by cases haside <;> rfl) rfl
  | debounces hdebounces _ hstep =>
    cases hdebounces with
    | hear => exact hsilent rfl (Debouncer.lastSeen_of_step hstep nofun)
    | quiet => exact hsilent rfl (Debouncer.lastSeen_of_step hstep nofun)
    | read => exact Debouncer.lastSeen_of_read hstep
  | sends _ _ hstep => exact hsilent rfl (Debouncer.lastSeen_of_step hstep nofun)
  | hands => exact hsilent rfl rfl
  | works => exact hsilent rfl rfl
  | isThrough => exact hsilent rfl rfl
  | tells => exact hsilent rfl rfl
  | drives hdrives => exact hsilent (by cases hdrives <;> rfl) rfl

/-- From the empty text on, what was noticed changed from one time to the next, and what was noticed
last was read last. -/
structure Notices (steps : List (Step η)) (c : Compilation η) : Prop where
  changes : ([] :: steps.filterMap Step.noticed?).IsChain (· ≠ ·)
  last : ([] :: steps.filterMap Step.noticed?).getLast? = some c.debouncer.lastSeen

theorem notices_step (hnotices : Notices steps c) (hc : Change h c event e) :
    Notices (steps ++ [⟨c, event, e⟩]) e := by
  obtain ⟨hchanges, hlast⟩ := hnotices
  obtain ⟨hother, hnow⟩ := hc.lastSeen
  have hall : [] :: (steps ++ [(⟨c, event, e⟩ : Step η)]).filterMap Step.noticed? =
      ([] :: steps.filterMap Step.noticed?) ++ (Step.noticed? ⟨c, event, e⟩).toList := by
    rw [Lists.filterMap_concat, List.cons_append]
  cases hnoticed : Step.noticed? ⟨c, event, e⟩ with
  | none =>
    rw [hnoticed, Option.toList_none, List.append_nil] at hall
    rw [hnoticed, Option.getD_none] at hnow
    exact ⟨hall ▸ hchanges, hall ▸ hnow ▸ hlast⟩
  | some text =>
    rw [hnoticed, Option.toList_some] at hall
    rw [hnoticed, Option.getD_some] at hnow
    have hnew : ∀ last ∈ ([] :: steps.filterMap Step.noticed?).getLast?,
        ∀ text' ∈ [text].head?, last ≠ text' := by
      rw [hlast]
      rintro last ⟨⟩ text' ⟨⟩
      exact (hother text hnoticed).symm
    constructor
    · rw [hall]
      exact List.isChain_append.mpr ⟨hchanges, .singleton text, hnew⟩
    · rw [hall, hnow]
      exact List.getLast?_concat

theorem notices_of_run (hrun : Run h c steps d) (hlast : c.debouncer.lastSeen = []) :
    Notices steps d := by
  induction hrun with
  | start => exact ⟨.singleton [], congrArg some hlast.symm⟩
  | step event _ hstep ih => exact notices_step ih (change_of_step hstep)

/-! ## What was sent -/

section
variable {host : Host} {files : FileTree} {invocation : Invocation} {outFile : Path} {kept : η}

theorem lastSeen_of_starts (hstart : Starts host files invocation outFile kept c) :
    c.debouncer.lastSeen = [] := by
  cases hstart <;> rfl

/-- What the debouncer has sent: texts that change from one to the next, the first of them not empty. If
every change of the output is reported, then, once nothing is left to be heard of and the debouncer waits
for a change, the last of them stands at the output, and the empty text if there are none. -/
structure Delivers (steps : List (Step η)) (d : Compilation η) : Prop where
  first : (steps.filterMap Step.sent?).head? ≠ some []
  changes : (steps.filterMap Step.sent?).IsChain (· ≠ ·)
  settled : (∀ s ∈ steps, s.IsReported) → d.debouncer.phase = .waiting → d.unheard = 0 →
    ∀ text, d.outputText? = some text → (steps.filterMap Step.sent?).getLast?.getD [] = text

/-- **Settled output is delivered,** in whatever order programs write, changes are heard of, quiet
periods end, and texts are read and sent. -/
theorem settled_is_delivered (hrun : Run h (start host files invocation outFile kept) steps d) :
    Delivers steps d := by
  have hstart := starts_start host files invocation outFile kept
  have hempty := lastSeen_of_starts hstart
  have hnotices := notices_of_run hrun hempty
  have hsent := hrun.accounts.noticed
  have hchanges : ([] :: steps.filterMap Step.sent?).IsChain (· ≠ ·) := by
    have hall := hnotices.changes
    rw [← hsent, ← List.cons_append] at hall
    exact hall.left_of_append
  obtain ⟨hfirst, hmore⟩ := List.isChain_cons.mp hchanges
  refine ⟨fun hhead => hfirst [] hhead rfl, hmore, fun hreported hwaiting hzero text htext => ?_⟩
  have hcurrent := isCurrent_of_run hrun hreported fun _ _ text htext => by
    rw [outputText?_of_starts hstart htext, hempty]
  have hread : d.debouncer.HasRead := by simp [Debouncer.HasRead, hwaiting]
  have hlast := hnotices.last
  rw [← hsent, Debouncer.outgoing?, hwaiting, Option.toList_none, List.append_nil,
    List.getLast?_cons] at hlast
  rw [hcurrent hread hzero text htext]
  exact Option.some.inj hlast

end

/-! ### A write between a quiet period and the read -/

/-- A compiler that writes three texts. -/
def threeTexts : Activity :=
  writing outputPath "one".toList (writing outputPath "two".toList
    (writing outputPath "one".toList (.ended (.code 0))))

/-- The second text is written before the first one is read. The third one is the first again. -/
def threeEvents : List Event :=
  [.compilerActs, .hear, .quiet, .compilerActs, .read, .send, .hear, .quiet, .read, .compilerActs, .hear,
    .quiet, .read, .send]

theorem settled_is_delivered_between : ∃ steps d,
    Run Record.handler (start (running threeTexts) bareFiles compilerCall outputPath .empty) steps d ∧
      (∀ s ∈ steps, s.IsReported) ∧ d.debouncer.phase = .waiting ∧ d.unheard = 0 ∧
      d.outputText? = some "one".toList ∧
      steps.filterMap Step.sent? = ["two".toList, "one".toList] ∧ Delivers steps d := by
  obtain ⟨⟨steps, d⟩, htrace⟩ := Option.isSome_iff_exists.mp
    (show (trace? Record.handler (start (running threeTexts) bareFiles compilerCall outputPath .empty)
      threeEvents).isSome = true by cbv)
  have hchecked : (trace? Record.handler
      (start (running threeTexts) bareFiles compilerCall outputPath .empty) threeEvents).map (fun run => (decide (∀ s ∈ run.1, s.IsReported), run.2.debouncer.phase,
        run.2.unheard, run.2.outputText?, run.1.filterMap Step.sent?)) =
      some (true, .waiting, 0, some "one".toList, ["two".toList, "one".toList]) := by cbv
  rw [htrace] at hchecked
  have hrun := run_of_trace htrace
  simp only [Option.map_some, Option.some.injEq, Prod.mk.injEq, decide_eq_true_eq] at hchecked
  obtain ⟨hreported, hwaiting, hzero, htext, hsent⟩ := hchecked
  exact ⟨steps, d, hrun, hreported, hwaiting, hzero, htext, hsent, settled_is_delivered hrun⟩

end AmdBundle.Compilation
