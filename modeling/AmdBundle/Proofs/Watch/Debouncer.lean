import AmdBundle.Watch.Debouncer

/-!
# What a debouncer keeps

* `Debouncer.Move` : all that one step of a debouncer can do; `Debouncer.move_of_step`;
* `Debouncer.outgoing?_before`, `Debouncer.outgoing?_after` : when there is something to send;
* `Debouncer.of_read_some`, `Debouncer.of_read_none`, `Debouncer.eq_some_of_read`,
  `Debouncer.lastSeen_of_read` : what a read does;
* `Debouncer.HasRead` : nothing was heard of since the last read; `Debouncer.hasRead_of_step`.
-/

set_option autoImplicit false

namespace AmdBundle.Debouncer

/-- What a step of a debouncer can do. -/
inductive Move : Debouncer → Event → Debouncer → Prop where
  | hears (last : Text) : Move ⟨.waiting, last⟩ .hear ⟨.quieting, last⟩
  | hearsMore (last : Text) : Move ⟨.quieting, last⟩ .hear ⟨.quieting, last⟩
  | calms (last : Text) : Move ⟨.quieting, last⟩ .quiet ⟨.reading, last⟩
  | misses (last : Text) : Move ⟨.reading, last⟩ (.read none) ⟨.waiting, last⟩
  | recognizes (last : Text) : Move ⟨.reading, last⟩ (.read (some last)) ⟨.waiting, last⟩
  | notices {text last : Text} (htext : text ≠ last) :
      Move ⟨.reading, last⟩ (.read (some text)) ⟨.sending text, text⟩
  | sends (content last : Text) : Move ⟨.sending content, last⟩ .send ⟨.waiting, last⟩

theorem move_of_step {d e : Debouncer} {event : Event} (h : d.step? event = some e) :
    Move d event e := by
  obtain ⟨phase, last⟩ := d
  cases event with
  | hear =>
    cases phase <;> simp [step?] at h
    · exact h ▸ .hears last
    · exact h ▸ .hearsMore last
  | quiet => cases phase <;> simp [step?] at h; exact h ▸ .calms last
  | read content =>
    cases phase <;> simp [step?] at h
    cases content with
    | none => exact Option.some.inj h ▸ .misses last
    | some text =>
      obtain rfl := Option.some.inj h
      rw [receive]
      split
      · next hlast =>
        subst hlast
        exact .recognizes text
      · next hlast => exact .notices hlast
  | send => cases phase <;> simp [step?] at h; exact h ▸ .sends _ last

/-- There is something to send only before it is sent. -/
theorem outgoing?_before {d e : Debouncer} {event : Event} (h : d.step? event = some e)
    (hsend : event ≠ .send) : d.outgoing? = none := by
  cases move_of_step h <;> first | rfl | exact absurd rfl hsend

/-- There is something to send only behind a read. -/
theorem outgoing?_after {d e : Debouncer} {event : Event} (h : d.step? event = some e)
    (hread : ∀ content, event ≠ .read content) : e.outgoing? = none := by
  cases move_of_step h <;> first | rfl | exact absurd rfl (hread _)

theorem lastSeen_of_step {d e : Debouncer} {event : Event} (h : d.step? event = some e)
    (hread : ∀ content, event ≠ .read content) : e.lastSeen = d.lastSeen := by
  cases move_of_step h <;> first | rfl | exact absurd rfl (hread _)

/-- A text that is read is sent, unless it was read last. -/
theorem of_read_some {d e : Debouncer} {text : Text} (h : d.step? (.read (some text)) = some e) :
    e.lastSeen = text ∧ e.outgoing? = if text = d.lastSeen then none else some text := by
  cases move_of_step h with
  | recognizes => simp [outgoing?]
  | notices htext => simp [outgoing?, htext]

theorem of_read_none {d e : Debouncer} (h : d.step? (.read none) = some e) :
    e.lastSeen = d.lastSeen ∧ e.outgoing? = none := by
  cases move_of_step h with
  | misses => exact ⟨rfl, rfl⟩

/-- Only what is read is sent. -/
theorem eq_some_of_read {d e : Debouncer} {content : Option Text} {text : Text}
    (h : d.step? (.read content) = some e) (hout : e.outgoing? = some text) :
    content = some text := by
  cases move_of_step h with
  | misses => cases hout
  | recognizes => cases hout
  | notices => exact hout

/-- What is to be sent is not what was read last before, and it is from then on. -/
theorem lastSeen_of_read {d e : Debouncer} {content : Option Text}
    (h : d.step? (.read content) = some e) :
    (∀ text, e.outgoing? = some text → text ≠ d.lastSeen) ∧
      e.lastSeen = e.outgoing?.getD d.lastSeen := by
  cases move_of_step h with
  | misses => exact ⟨nofun, rfl⟩
  | recognizes => exact ⟨nofun, rfl⟩
  | notices htext =>
    refine ⟨fun text hout => ?_, rfl⟩
    obtain rfl := Option.some.inj hout
    exact htext

/-- The debouncer has heard of nothing since it read last. -/
def HasRead (d : Debouncer) : Prop :=
  match d.phase with
  | .waiting | .sending _ => True
  | .quieting | .reading => False

/-- Only behind a read has it heard of nothing, and sending does not change that. -/
theorem hasRead_of_step {d e : Debouncer} {event : Event} (h : d.step? event = some e)
    (hread : e.HasRead) : (∃ content, event = .read content) ∨ event = .send ∧ d.HasRead := by
  cases move_of_step h with
  | hears => cases hread
  | hearsMore => cases hread
  | calms => cases hread
  | misses => exact .inl ⟨_, rfl⟩
  | recognizes => exact .inl ⟨_, rfl⟩
  | notices => exact .inl ⟨_, rfl⟩
  | sends => exact .inr ⟨rfl, trivial⟩

end AmdBundle.Debouncer
