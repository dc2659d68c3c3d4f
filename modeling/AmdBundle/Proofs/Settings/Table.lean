import AmdBundle.Proofs.Text.Order
import AmdBundle.Settings.Value
import Mathlib.Data.List.Nodup

/-!
# Tables of settings

A table is kept sorted by its keys, so no key stands in it twice. A table over another one is given
by what stands under each key.

* `Sorted` : a sorted table; `sorted_insert`, `sorted_overlayFields`, `sorted_ofFields`;
* `lookup_insert`, `lookup_ofFields`, `lookup_overlayFields` : what stands under a key;
* `Setting.onTop` : one setting over another, if there are any.
-/

set_option autoImplicit false

namespace AmdBundle

namespace Setting

/-! ## Sorted tables -/

/-- Every key comes before those behind it. -/
def Sorted {α : Type} (fields : List (Text × α)) : Prop :=
  fields.Pairwise fun f g => f.1 ≠ g.1 ∧ Text.before f.1 g.1 = true

theorem Sorted.nodup {α : Type} {fields : List (Text × α)} (h : Sorted fields) :
    (fields.map Prod.fst).Nodup :=
  List.pairwise_map.mpr (h.imp And.left)

theorem mem_of_mem_insert {α : Type} {key : Text} {value : α} {fields : List (Text × α)}
    {field : Text × α} (h : field ∈ insert key value fields) :
    field = (key, value) ∨ field ∈ fields := by
  induction fields with
  | nil => exact .inl (List.mem_singleton.mp h)
  | cons first fields ih =>
    unfold insert at h
    split at h
    · exact (List.mem_cons.mp h).imp_right (List.mem_cons_of_mem _)
    · split at h
      · exact List.mem_cons.mp h
      · rcases List.mem_cons.mp h with rfl | h
        · exact .inr List.mem_cons_self
        · exact (ih h).imp_right (List.mem_cons_of_mem _)

theorem sorted_insert {α : Type} (key : Text) (value : α) {fields : List (Text × α)}
    (h : Sorted fields) : Sorted (insert key value fields) := by
  induction fields with
  | nil => exact List.pairwise_singleton _ _
  | cons first fields ih =>
    obtain ⟨hfirst, hfields⟩ := List.pairwise_cons.mp h
    unfold insert
    split
    · next hkey =>
      subst hkey
      exact List.Pairwise.cons hfirst hfields
    · next hkey =>
      split
      · next hbefore =>
        refine List.Pairwise.cons (fun field hfield => ?_) h
        rcases List.mem_cons.mp hfield with rfl | hfield
        · exact ⟨Ne.symm hkey, hbefore⟩
        · -- A key that comes before the first one cannot stand behind it.
          obtain ⟨hne, hbehind⟩ := hfirst field hfield
          refine ⟨?_, Text.before_trans hbefore hbehind⟩
          rintro rfl
          exact hne (Text.before_antisymm hbehind hbefore)
      · next hbefore =>
        refine List.Pairwise.cons (fun field hfield => ?_) (ih hfields)
        rcases mem_of_mem_insert hfield with rfl | hfield
        · exact ⟨hkey, Text.before_total hbefore⟩
        · exact hfirst field hfield

theorem sorted_ofFields (members : List (Text × Json)) : Sorted (ofFields members) := by
  induction members with
  | nil => exact List.Pairwise.nil
  | cons first members ih =>
    rw [ofFields]
    exact sorted_insert _ _ ih

theorem sorted_overlayFields {lower : List (Text × Setting)} (h : Sorted lower)
    (upper : List (Text × Setting)) : Sorted (overlayFields lower upper) := by
  induction upper generalizing lower with
  | nil => rwa [overlayFields]
  | cons first upper ih =>
    rw [overlayFields]
    exact ih (sorted_insert _ _ h)

/-! ## What stands under a key -/

theorem lookup_of_not_mem {key : Text} {fields : List (Text × Setting)}
    (h : key ∉ fields.map Prod.fst) : lookup key fields = none := by
  induction fields with
  | nil => rfl
  | cons first fields ih =>
    obtain ⟨hfirst, hfields⟩ := not_or.mp (List.mem_cons.not.mp h)
    rw [lookup, if_neg (Ne.symm hfirst), ih hfields]

theorem mem_of_lookup {key : Text} {value : Setting} {fields : List (Text × Setting)}
    (h : lookup key fields = some value) : (key, value) ∈ fields := by
  induction fields with
  | nil => cases h
  | cons first fields ih =>
    unfold lookup at h
    split at h
    · next hkey =>
      obtain rfl := Option.some.inj h
      simp [← hkey]
    · exact List.mem_cons_of_mem _ (ih h)

theorem lookup_of_mem {key : Text} {value : Setting} {fields : List (Text × Setting)}
    (hnodup : (fields.map Prod.fst).Nodup) (h : (key, value) ∈ fields) :
    lookup key fields = some value := by
  induction fields with
  | nil => cases h
  | cons first fields ih =>
    obtain ⟨hfirst, hnodup⟩ := List.nodup_cons.mp hnodup
    rcases List.mem_cons.mp h with rfl | h
    · simp [lookup]
    · have hne : first.1 ≠ key := by
        rintro rfl
        exact hfirst (List.mem_map.mpr ⟨_, h, rfl⟩)
      rw [lookup, if_neg hne, ih hnodup h]

theorem lookup_append (key : Text) (fields more : List (Text × Setting)) :
    lookup key (fields ++ more) = (lookup key fields).or (lookup key more) := by
  induction fields with
  | nil => rfl
  | cons first fields ih =>
    by_cases hkey : first.1 = key
    · simp [lookup, hkey]
    · simp [lookup, hkey, ih]

theorem lookup_insert (key key' : Text) (value : Setting) (fields : List (Text × Setting)) :
    lookup key (insert key' value fields) =
      if key' = key then some value else lookup key fields := by
  induction fields with
  | nil => simp [insert, lookup]
  | cons first fields ih =>
    unfold insert
    split
    · next hfirst =>
      subst hfirst
      by_cases hkey : first.1 = key <;> simp [lookup, hkey]
    · next hfirst =>
      split
      · simp [lookup]
      · by_cases hkey : first.1 = key
        · have hne : key' ≠ key := fun h => hfirst (hkey.trans h.symm)
          simp [lookup, hkey, hne]
        · simp [lookup, hkey, ih]

theorem lookup_ofFields (key : Text) (members : List (Text × Json)) :
    lookup key (ofFields members) = (Json.field? key members).map ofJson := by
  induction members with
  | nil => rfl
  | cons first members ih =>
    rw [ofFields, lookup_insert, ih, Json.field?]
    by_cases hkey : first.1 = key <;> simp [hkey]

/-! ## One over another -/

def isTable : Setting → Bool
  | .table _ => true
  | _ => false

theorem overlay_of_single {lower upper : Setting}
    (h : upper.isTable = false ∨ lower.isTable = false) : overlay lower upper = upper := by
  cases upper with
  | table fields =>
    cases lower with
    | table _ => rcases h with h | h <;> cases h
    | _ => rfl
  | _ => rfl

/-- A setting over another one, if there are any. -/
def onTop : Option Setting → Option Setting → Option Setting
  | some upper, some lower => some (overlay lower upper)
  | some upper, none => some upper
  | none, lower => lower

theorem onTop_none (upper : Option Setting) : onTop upper none = upper := by
  cases upper <;> rfl

theorem onTop_eq_or {upper lower : Option Setting}
    (h : (∀ s, upper = some s → s.isTable = false) ∨ ∀ s, lower = some s → s.isTable = false) :
    onTop upper lower = upper.or lower := by
  cases upper with
  | none => rfl
  | some new =>
    cases lower with
    | none => rfl
    | some old => exact congrArg some (overlay_of_single (h.imp (· new rfl) (· old rfl)))

/-- **A table over another one**, key by key. -/
theorem lookup_overlayFields {upper : List (Text × Setting)} (hnodup : (upper.map Prod.fst).Nodup)
    (key : Text) (lower : List (Text × Setting)) :
    lookup key (overlayFields lower upper) = onTop (lookup key upper) (lookup key lower) := by
  induction upper generalizing lower with
  | nil => rw [overlayFields]; rfl
  | cons first upper ih =>
    obtain ⟨hfirst, hnodup⟩ := List.nodup_cons.mp hnodup
    rw [overlayFields, ih hnodup, lookup_insert, lookup]
    by_cases hkey : first.1 = key
    · subst hkey
      rw [if_pos rfl, if_pos rfl, lookup_of_not_mem hfirst]
      cases lookup first.1 lower <;> rfl
    · rw [if_neg hkey, if_neg hkey]

end Setting

end AmdBundle
