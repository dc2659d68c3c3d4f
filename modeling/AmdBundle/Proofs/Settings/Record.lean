import AmdBundle.Decode.Record
import AmdBundle.Proofs.Outcome
import AmdBundle.Proofs.Settings.Table

/-!
# Records from tables

Every field of a record puts its value into one component and leaves the others as they are. So a
component of a record that is taken from a table is the value under the name of its field, or what it
was before.

* `Field.Keeps`, `Shape.Owns` : the component of a field;
* `Reads` : what is read of a setting that may be missing;
* `reads_of_settingFields`, `exists_settingFields` : all fields of a table.
-/

set_option autoImplicit false

namespace AmdBundle

variable {σ α β : Type}

/-- What is read of a setting, or the default if there is none. -/
def Reads (d : Decoder β) (default value : β) : Option Setting → Prop
  | some setting => d.ofSetting setting = .ok value
  | none => value = default

/-- The field leaves a component as it is. -/
def Field.Keeps (field : Field σ) (get : σ → β) : Prop :=
  ∀ setting change, field.fill.ofSetting setting = .ok change → ∀ s, get (change s) = get s

theorem Field.keeps_of {name : String} {d : Decoder α} {set : α → σ → σ} {get : σ → β}
    (h : ∀ a s, get (set a s) = get s) : (Field.of name d set).Keeps get := by
  intro setting change hchange s
  obtain ⟨a, -, rfl⟩ := Outcome.map_eq_ok_iff.mp hchange
  exact h a s

/-- The component belongs to the field of that name. -/
structure Shape.Owns (shape : Shape σ α) (name : String) (d : Decoder β) (get : σ → β) : Prop where
  own : ∃ set, shape.field? name.toList = some (.of name d set) ∧ ∀ b s, get (set b s) = b
  others : ∀ field ∈ shape.fields, field.name = name ∨ field.Keeps get

namespace Decoder

variable {shape : Shape σ α} {fields : List (Text × Setting)}

theorem settingFields_cons_eq_ok_iff {key : Text} {setting : Setting} {s s' : σ} :
    settingFields shape ((key, setting) :: fields) s = .ok s' ↔
      (shape.field? key = none ∧ shape.isClosed = false ∧ settingFields shape fields s = .ok s') ∨
        ∃ field, shape.field? key = some field ∧ ∃ change,
          field.fill.ofSetting setting = .ok change ∧ settingFields shape fields (change s) = .ok s' := by
  rw [settingFields]
  cases hfield : shape.field? key with
  | none => cases hclosed : shape.isClosed <;> simp
  | some field => simp [Outcome.bind_eq_ok_iff, Outcome.mapError_eq_ok_iff]

theorem field_of_field? {key : Text} {field : Field σ} (h : shape.field? key = some field) :
    field ∈ shape.fields ∧ field.name.toList = key := by
  have hname := List.find?_some h
  exact ⟨List.mem_of_find?_eq_some h, of_decide_eq_true hname⟩

/-- **A component of a record** is read of what stands under the name of its field. -/
theorem reads_of_settingFields {name : String} {d : Decoder β} {get : σ → β}
    (howns : shape.Owns name d get) (hnodup : (fields.map Prod.fst).Nodup) {s s' : σ}
    (h : settingFields shape fields s = .ok s') :
    Reads d (get s) (get s') (Setting.lookup name.toList fields) := by
  obtain ⟨set, hown, hset⟩ := howns.own
  induction fields generalizing s with
  | nil =>
    obtain rfl := Except.ok.inj h
    rfl
  | cons first fields ih =>
    obtain ⟨key, setting⟩ := first
    obtain ⟨hkey, hfields⟩ := List.nodup_cons.mp hnodup
    rw [Setting.lookup]
    rcases settingFields_cons_eq_ok_iff.mp h with ⟨hnone, -, h⟩ | ⟨field, hfield, change, hchange, h⟩
    · have hne : key ≠ name.toList := by
        rintro rfl
        rw [hown] at hnone
        cases hnone
      rw [if_neg hne]
      exact ih hfields h
    · by_cases hname : key = name.toList
      · subst hname
        obtain rfl := Option.some.inj (hown.symm.trans hfield)
        obtain ⟨b, hb, rfl⟩ := Outcome.map_eq_ok_iff.mp hchange
        -- The name does not occur again, so the component stays what it was set to.
        have hlast := ih hfields h
        rw [Setting.lookup_of_not_mem hkey] at hlast
        rw [if_pos rfl]
        show d.ofSetting setting = .ok (get s')
        rw [hb, show get s' = get (set b s) from hlast, hset]
      · obtain ⟨hmem, hfieldName⟩ := field_of_field? hfield
        have hkeeps : field.Keeps get := by
          refine (howns.others field hmem).resolve_left fun heq => hname ?_
          rw [← hfieldName, heq]
        have hlast := ih hfields h
        rw [hkeeps setting change hchange s] at hlast
        rwa [if_neg hname]

/-- A table of known fields makes a record if each of them can be read. -/
theorem exists_settingFields
    (h : ∀ f ∈ fields, ∃ field, shape.field? f.1 = some field ∧
      ∃ change, field.fill.ofSetting f.2 = .ok change) (s : σ) :
    ∃ s', settingFields shape fields s = .ok s' := by
  induction fields generalizing s with
  | nil => exact ⟨s, rfl⟩
  | cons first fields ih =>
    obtain ⟨⟨field, hfield, change, hchange⟩, hfields⟩ := List.forall_mem_cons.mp h
    obtain ⟨s', hs'⟩ := ih hfields (change s)
    exact ⟨s', settingFields_cons_eq_ok_iff.mpr (.inr ⟨field, hfield, change, hchange, hs'⟩)⟩

/-- A closed record takes known fields only. -/
theorem field?_of_settingFields (hclosed : shape.isClosed = true) {s s' : σ}
    (h : settingFields shape fields s = .ok s') :
    ∀ f ∈ fields, ∃ field, shape.field? f.1 = some field := by
  induction fields generalizing s with
  | nil => simp
  | cons first fields ih =>
    rcases settingFields_cons_eq_ok_iff.mp h with ⟨-, hopen, -⟩ | ⟨field, hfield, change, -, h⟩
    · rw [hclosed] at hopen
      cases hopen
    · exact List.forall_mem_cons.mpr ⟨⟨field, hfield⟩, ih h⟩

end Decoder

end AmdBundle
