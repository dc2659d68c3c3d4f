import Mathlib.Data.List.Forall2

/-!
# Steps that can fail

* `bind_eq_ok_iff` : two steps succeed exactly if the first does and the second does behind it;
* `bind_eq_error_iff` : otherwise the error is that of the first step that fails;
* `map_eq_ok_iff` : a value computed from the outcome of a step; `mapError_eq_ok_iff` : an error
  put in other words; `toOption_eq_some_iff` : the outcome of a step without its error;
* `seq_eq_ok_iff` : two steps that give nothing;
* `mapM_eq_ok_iff`, `forM_eq_ok_iff` : a step for every member of a list succeeds exactly if it does
  for each;
* `foldlM_congr`, `exists_of_foldlM_eq_error` : one step behind the other for the members of a list.
-/

set_option autoImplicit false

namespace AmdBundle.Outcome
universe u v w
variable {ε : Type u} {α : Type v} {β : Type v}

@[simp] theorem bind_ok (a : α) (f : α → Except ε β) : (Except.ok a >>= f) = f a := rfl

@[simp] theorem bind_error (e : ε) (f : α → Except ε β) :
    ((Except.error e : Except ε α) >>= f) = .error e := rfl

theorem bind_eq_ok_iff {x : Except ε α} {f : α → Except ε β} {b : β} :
    (x >>= f) = .ok b ↔ ∃ a, x = .ok a ∧ f a = .ok b := by
  cases x with
  | error e => simp
  | ok a => simp

theorem bind_eq_error_iff {x : Except ε α} {f : α → Except ε β} {e : ε} :
    (x >>= f) = .error e ↔ x = .error e ∨ ∃ a, x = .ok a ∧ f a = .error e := by
  cases x with
  | error e' => simp
  | ok a => simp

theorem seq_eq_ok_iff {β : Type} {x : Except ε Unit} {y : Except ε β} {b : β} :
    (x >>= fun _ => y) = .ok b ↔ x = .ok () ∧ y = .ok b := by
  rw [bind_eq_ok_iff]
  exact ⟨fun ⟨_, hx, hy⟩ => ⟨hx, hy⟩, fun ⟨hx, hy⟩ => ⟨(), hx, hy⟩⟩

theorem map_eq_ok_iff {x : Except ε α} {f : α → β} {b : β} :
    x.map f = .ok b ↔ ∃ a, x = .ok a ∧ f a = b := by
  cases x with
  | error e => simp [Except.map]
  | ok a => simp [Except.map]

theorem map_eq_error_iff {x : Except ε α} {f : α → β} {e : ε} :
    x.map f = .error e ↔ x = .error e := by
  cases x with
  | error e => simp [Except.map]
  | ok a => simp [Except.map]

theorem mapError_eq_ok_iff {ε' : Type w} {x : Except ε α} {f : ε → ε'} {a : α} :
    x.mapError f = .ok a ↔ x = .ok a := by
  cases x with
  | error e => simp [Except.mapError]
  | ok a => simp [Except.mapError]

theorem toOption_eq_some_iff {x : Except ε α} {a : α} : x.toOption = some a ↔ x = .ok a := by
  cases x with
  | error e => simp [Except.toOption]
  | ok a => simp [Except.toOption]

theorem exists_eq_ok {x : Except ε α} (h : x.isOk = true) : ∃ a, x = .ok a := by
  cases x with
  | error e => cases h
  | ok a => exact ⟨a, rfl⟩

/-- A step that may have no outcome at all has one and succeeds. -/
theorem exists_eq_some_ok {x : Option (Except ε α)} (h : x.any Except.isOk = true) :
    ∃ a, x = some (.ok a) := by
  cases x with
  | none => cases h
  | some outcome =>
    obtain ⟨a, rfl⟩ := exists_eq_ok h
    exact ⟨a, rfl⟩

/-- What is computed from a value, if the value is known. -/
theorem eq_of_map_eq_ok {x : Except ε α} {f : α → β} {a : α} {b : β} (hx : x = .ok a)
    (h : x.map f = .ok b) : f a = b := by
  subst hx
  exact Except.ok.inj h

theorem mapM_eq_ok_iff {α : Type w} {xs : List α} {f : α → Except ε β} {ys : List β} :
    xs.mapM f = .ok ys ↔ List.Forall₂ (fun x y => f x = .ok y) xs ys := by
  induction xs generalizing ys with
  | nil =>
    rw [List.mapM_nil, List.forall₂_nil_left_iff]
    exact ⟨fun h => (Except.ok.inj h).symm, fun h => congrArg Except.ok h.symm⟩
  | cons x xs ih =>
    rw [List.mapM_cons, List.forall₂_cons_left_iff]
    constructor
    · intro h
      obtain ⟨y, hy, h⟩ := bind_eq_ok_iff.mp h
      obtain ⟨more, hmore, h⟩ := bind_eq_ok_iff.mp h
      exact ⟨y, more, hy, ih.mp hmore, (Except.ok.inj h).symm⟩
    · rintro ⟨y, more, hy, hmore, rfl⟩
      rw [hy, bind_ok, ih.mpr hmore, bind_ok]
      rfl

theorem forM_eq_ok_iff {xs : List α} {f : α → Except ε Unit} :
    xs.forM f = .ok () ↔ ∀ x ∈ xs, f x = .ok () := by
  induction xs with
  | nil => exact ⟨fun _ => by simp, fun _ => rfl⟩
  | cons x xs ih =>
    show (f x >>= fun _ => xs.forM f) = .ok () ↔ _
    rw [seq_eq_ok_iff, ih, List.forall_mem_cons]

/-! ## Folds that keep something

`P` holds at the start and is kept by every step that succeeds. -/

section
variable {α : Type w} {xs : List α} {f g : β → α → Except ε β} {P : β → Prop} {b : β}

theorem foldlM_congr (hb : P b) (hkeep : ∀ b b' x, P b → f b x = .ok b' → P b')
    (h : ∀ x ∈ xs, ∀ b, P b → f b x = g b x) : xs.foldlM f b = xs.foldlM g b := by
  induction xs generalizing b with
  | nil => rfl
  | cons x xs ih =>
    obtain ⟨hx, hxs⟩ := List.forall_mem_cons.mp h
    rw [List.foldlM_cons, List.foldlM_cons, ← hx b hb]
    cases hstep : f b x with
    | error e => rfl
    | ok b' => exact ih (hkeep b b' x hb hstep) hxs

theorem exists_of_foldlM_eq_error (hb : P b) (hkeep : ∀ b b' x, P b → f b x = .ok b' → P b') {e : ε}
    (h : xs.foldlM f b = .error e) : ∃ x ∈ xs, ∃ b', P b' ∧ f b' x = .error e := by
  induction xs generalizing b with
  | nil => cases h
  | cons x xs ih =>
    rw [List.foldlM_cons] at h
    rcases bind_eq_error_iff.mp h with hx | ⟨b', hstep, hmore⟩
    · exact ⟨x, List.mem_cons_self, b, hb, hx⟩
    · obtain ⟨y, hy, b'', hb'', hfy⟩ := ih (hkeep b b' x hb hstep) hmore
      exact ⟨y, List.mem_cons_of_mem _ hy, b'', hb'', hfy⟩

end

end AmdBundle.Outcome
