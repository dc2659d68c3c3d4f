import Mathlib.Data.List.Forall2
import Mathlib.Data.List.Induction
import Mathlib.Data.List.Nodup

/-!
# Lists

* `exists_append_of_length_le` : the longer of two fronts goes on where the shorter one ends;
* `exists_append_of_not_mem_left`, `exists_append_of_not_mem_right` : a member of the whole that one part
  does not have;
* `exists_split_concat_iff` : the last member of a kind, in a list with one member more;
* `exists_of_mem_left`, `pairwise_of_forall₂` : two lists whose members are related one by one;
* `pairwise_iff_of_sorted` : what holds between the members of a sorted list;
* `filterMap_concat`, `exists_of_filterMap_eq_concat` : what the last member gives;
* `eraseDups_concat`, `nodup_eraseDups`, `eraseDups_of_nodup`, `eraseDups_eraseDups_append` : a list
  without repetitions;
* `length_le_length_flatMap` : parts that are not empty;
* `infix_intercalate`, `intercalate_cons`, `apply_intercalate`, `intercalate_map_append`,
  `intercalate_nested`, `forall_mem_intercalate`, `mem_of_mem_splitOn` : the members of a list between
  separators.
-/

set_option autoImplicit false

namespace AmdBundle.Lists
universe u v

/-! ## A list cut in two ways -/

theorem exists_append_of_length_le {α : Type u} {a b a' b' : List α} (h : a ++ b = a' ++ b')
    (hle : a.length ≤ a'.length) : ∃ mid, a' = a ++ mid ∧ b = mid ++ b' := by
  rcases List.append_eq_append_iff.mp h with hmid | ⟨mid, ha, hb⟩
  · exact hmid
  · have hmid : mid = [] := by
      rw [ha, List.length_append] at hle
      exact List.eq_nil_of_length_eq_zero (by omega)
    subst hmid
    exact ⟨[], by simpa using ha.symm, by simpa using hb.symm⟩

theorem exists_append_of_not_mem_left {α : Type u} {front back a b : List α} {x : α}
    (h : front ++ x :: back = a ++ b) (hx : x ∉ a) : ∃ mid, front = a ++ mid ∧ b = mid ++ x :: back := by
  rcases List.append_eq_append_iff.mp h with ⟨mid, rfl, hback⟩ | hmid
  · cases mid with
    | nil => exact ⟨[], by simp, hback.symm⟩
    | cons y mid =>
      obtain ⟨rfl, -⟩ := List.cons.inj hback
      exact absurd (by simp) hx
  · exact hmid

theorem exists_append_of_not_mem_right {α : Type u} {front back a b : List α} {x : α}
    (h : front ++ x :: back = a ++ b) (hx : x ∉ b) : ∃ mid, a = front ++ x :: mid ∧ back = mid ++ b := by
  rcases List.append_eq_append_iff.mp h with ⟨mid, rfl, hback⟩ | ⟨mid, -, rfl⟩
  · cases mid with
    | nil =>
      rw [List.nil_append] at hback
      exact absurd (hback ▸ List.mem_cons_self) hx
    | cons y mid =>
      obtain ⟨rfl, rfl⟩ := List.cons.inj hback
      exact ⟨mid, rfl, rfl⟩
  · exact absurd (by simp) hx

/-- The last member of one kind, behind which all others are of another kind. -/
theorem exists_split_concat_iff {α : Type u} {P Q : α → Prop} {xs : List α} {y : α} :
    (∃ a x b, xs ++ [y] = a ++ x :: b ∧ P x ∧ ∀ z ∈ b, Q z) ↔
      P y ∨ Q y ∧ ∃ a x b, xs = a ++ x :: b ∧ P x ∧ ∀ z ∈ b, Q z := by
  constructor
  · rintro ⟨a, x, b, heq, hx, hb⟩
    rcases List.eq_nil_or_concat b with rfl | ⟨b, last, rfl⟩
    · obtain ⟨-, hlast⟩ := List.append_inj' heq rfl
      exact .inl ((List.cons.inj hlast).1 ▸ hx)
    · rw [List.concat_eq_append, ← List.cons_append, ← List.append_assoc] at heq
      obtain ⟨rfl, hlast⟩ := List.append_inj' heq rfl
      obtain rfl := (List.cons.inj hlast).1
      refine .inr ⟨hb y (by simp), a, x, b, rfl, hx, fun z hz => hb z (by simp [hz])⟩
  · rintro (hy | ⟨hy, a, x, b, rfl, hx, hb⟩)
    · exact ⟨xs, y, [], rfl, hy, by simp⟩
    · refine ⟨a, x, b ++ [y], by simp, hx, ?_⟩
      intro z hz
      rcases List.mem_append.mp hz with hz | hz
      · exact hb z hz
      · exact List.mem_singleton.mp hz ▸ hy

/-! ## Two lists side by side -/

section
variable {α : Type u} {β : Type v} {R : α → β → Prop} {xs : List α} {ys : List β}

theorem exists_of_mem_left (h : List.Forall₂ R xs ys) {x : α} (hx : x ∈ xs) : ∃ y ∈ ys, R x y := by
  induction h with
  | nil => cases hx
  | cons hR _ ih =>
    rcases List.mem_cons.mp hx with rfl | hx
    · exact ⟨_, List.mem_cons_self, hR⟩
    · obtain ⟨y, hy, hxy⟩ := ih hx
      exact ⟨y, List.mem_cons_of_mem _ hy, hxy⟩

theorem exists_of_mem_right (h : List.Forall₂ R xs ys) {y : β} (hy : y ∈ ys) : ∃ x ∈ xs, R x y :=
  exists_of_mem_left h.flip hy

/-- A relation between the members of one list carries over to those of the other. -/
theorem pairwise_of_forall₂ {S : α → α → Prop} {T : β → β → Prop} (h : List.Forall₂ R xs ys)
    (hST : ∀ x x' y y', R x y → R x' y' → S x x' → T y y') (hS : xs.Pairwise S) :
    ys.Pairwise T := by
  induction h with
  | nil => exact List.Pairwise.nil
  | cons hR hall ih =>
    obtain ⟨hfirst, hrest⟩ := List.pairwise_cons.mp hS
    refine List.Pairwise.cons (fun y' hy' => ?_) (ih hrest)
    obtain ⟨x', hx', hR'⟩ := exists_of_mem_right hall hy'
    exact hST _ _ _ _ hR hR' (hfirst x' hx')

end

/-! ## Lists in order -/

section
variable {α : Type u} {f : α → Nat} {xs : List α}

/-- In a sorted list the pairs of members in order are those with growing values. -/
theorem pairwise_iff_of_sorted {S : α → α → Prop} (hsorted : xs.Pairwise (fun x y => f x < f y)) :
    xs.Pairwise S ↔ ∀ x ∈ xs, ∀ y ∈ xs, f x < f y → S x y := by
  constructor
  · intro hS x hx y hy hlt
    induction xs with
    | nil => cases hx
    | cons z xs ih =>
      obtain ⟨hz, hsorted⟩ := List.pairwise_cons.mp hsorted
      obtain ⟨hSz, hS⟩ := List.pairwise_cons.mp hS
      rcases List.mem_cons.mp hx with rfl | hx'
      · rcases List.mem_cons.mp hy with rfl | hy'
        · exact absurd hlt (Nat.lt_irrefl _)
        · exact hSz y hy'
      · rcases List.mem_cons.mp hy with rfl | hy'
        · exact absurd hlt (Nat.lt_asymm (hz x hx'))
        · exact ih hsorted hS hx' hy'
  · intro hall
    exact hsorted.imp_of_mem fun hx hy hlt => hall _ hx _ hy hlt

end

/-! ## One more member -/

theorem filterMap_concat {α : Type u} {β : Type v} (f : α → Option β) (xs : List α) (x : α) :
    (xs ++ [x]).filterMap f = xs.filterMap f ++ (f x).toList := by
  cases hx : f x with
  | none => simp [hx]
  | some y => simp [hx]

/-- The member that gives the last value. -/
theorem exists_of_filterMap_eq_concat {α : Type u} {β : Type v} {f : α → Option β} {xs : List α}
    {ys : List β} {y : β} (h : xs.filterMap f = ys ++ [y]) :
    ∃ front x back, xs = front ++ x :: back ∧ f x = some y ∧ front.filterMap f = ys ∧
      back.filterMap f = [] := by
  obtain ⟨before, behind, rfl, hbefore, hbehind⟩ := List.filterMap_eq_append_iff.mp h
  obtain ⟨mid, x, back, rfl, hmid, hx, hback⟩ := List.filterMap_eq_cons_iff.mp hbehind
  refine ⟨before ++ mid, x, back, by simp, hx, ?_, hback⟩
  rw [List.filterMap_append, hbefore, List.filterMap_eq_nil_iff.mpr hmid, List.append_nil]

/-! ## Repetitions -/

section
variable {α : Type u} [BEq α] [LawfulBEq α]

omit [BEq α] [LawfulBEq α] in
theorem nodup_append_singleton {xs : List α} {x : α} : (xs ++ [x]).Nodup ↔ x ∉ xs ∧ xs.Nodup := by
  rw [← List.concat_eq_append, List.nodup_concat]

theorem eraseDups_concat (xs : List α) (x : α) [Decidable (x ∈ xs)] :
    (xs ++ [x]).eraseDups = if x ∈ xs then xs.eraseDups else xs.eraseDups ++ [x] := by
  rw [List.eraseDups_append]
  by_cases hx : x ∈ xs
  · simp [List.removeAll, hx]
  · simp [List.removeAll, hx, List.eraseDups_cons]

theorem nodup_eraseDups [DecidableEq α] (xs : List α) : xs.eraseDups.Nodup := by
  induction xs using List.reverseRecOn with
  | nil => simp
  | append_singleton xs x ih =>
    rw [eraseDups_concat]
    split
    · exact ih
    · next hx => exact nodup_append_singleton.mpr ⟨mt List.mem_eraseDups.mp hx, ih⟩

theorem eraseDups_of_nodup [DecidableEq α] {xs : List α} (h : xs.Nodup) : xs.eraseDups = xs := by
  induction xs using List.reverseRecOn with
  | nil => simp
  | append_singleton xs x ih =>
    obtain ⟨hx, hxs⟩ := nodup_append_singleton.mp h
    rw [eraseDups_concat, if_neg hx, ih hxs]

theorem eraseDups_eraseDups_append [DecidableEq α] (xs ys : List α) :
    (xs.eraseDups ++ ys).eraseDups = (xs ++ ys).eraseDups := by
  induction ys using List.reverseRecOn with
  | nil => rw [List.append_nil, List.append_nil, eraseDups_of_nodup (nodup_eraseDups xs)]
  | append_singleton ys y ih =>
    rw [← List.append_assoc, ← List.append_assoc, eraseDups_concat, eraseDups_concat, ih]
    simp only [List.mem_append, List.mem_eraseDups]

theorem eraseDups_append_of_subset [DecidableEq α] {xs ys : List α} (h : ys ⊆ xs) :
    (xs ++ ys).eraseDups = xs.eraseDups := by
  induction ys using List.reverseRecOn with
  | nil => rw [List.append_nil]
  | append_singleton ys y ih =>
    have hy : y ∈ xs ++ ys := List.mem_append_left _ (h (by simp))
    rw [← List.append_assoc, eraseDups_concat, if_pos hy]
    exact ih fun z hz => h (by simp [hz])

end

/-! ## Parts one behind the other -/

theorem length_le_length_flatMap {α : Type u} {β : Type v} {f : α → List β} (hf : ∀ x, f x ≠ [])
    (xs : List α) : xs.length ≤ (xs.flatMap f).length := by
  induction xs with
  | nil => exact Nat.le_refl 0
  | cons x xs ih =>
    have hx := List.length_pos_of_ne_nil (hf x)
    rw [List.flatMap_cons, List.length_append, List.length_cons]
    omega

/-! ## Parts between separators -/

section
variable {α : Type u}

theorem infix_intercalate {sep part : List α} {parts : List (List α)} (hpart : part ∈ parts) :
    part <:+: sep.intercalate parts := by
  induction parts with
  | nil => cases hpart
  | cons first more ih =>
    cases more with
    | nil =>
      obtain rfl := List.mem_singleton.mp hpart
      simp
    | cons second more =>
      rw [List.intercalate_cons_cons]
      rcases List.mem_cons.mp hpart with rfl | hpart
      · exact (List.prefix_append _ _).isInfix.trans (List.prefix_append _ _).isInfix
      · exact (ih hpart).trans (List.suffix_append _ _).isInfix

theorem mem_intercalate {c : α} {sep part : List α} {parts : List (List α)} (hpart : part ∈ parts)
    (hc : c ∈ part) : c ∈ sep.intercalate parts :=
  (infix_intercalate hpart).subset hc

theorem forall_mem_intercalate {P : α → Prop} {sep : List α} {parts : List (List α)}
    (hsep : ∀ c ∈ sep, P c) (hparts : ∀ part ∈ parts, ∀ c ∈ part, P c) :
    ∀ c ∈ sep.intercalate parts, P c := by
  induction parts with
  | nil => simp
  | cons first more ih =>
    obtain ⟨hfirst, hmore⟩ := List.forall_mem_cons.mp hparts
    cases more with
    | nil => rwa [List.intercalate_singleton]
    | cons second more =>
      rw [List.intercalate_cons_cons]
      intro c hc
      rcases List.mem_append.mp hc with hc | hc
      · exact (List.mem_append.mp hc).elim (hfirst c) (hsep c)
      · exact ih hmore c hc

theorem intercalate_cons (sep first : List α) (more : List (List α)) :
    sep.intercalate (first :: more) = first ++ more.flatMap (sep ++ ·) := by
  induction more generalizing first with
  | nil => simp
  | cons second more ih => simp [List.intercalate_cons_cons, ih]

/-- What is done to a list part by part is done to the parts between separators. -/
theorem apply_intercalate {β : Type v} {f : List α → List β} (hnil : f [] = [])
    (happend : ∀ a b, f (a ++ b) = f a ++ f b) (sep : List α) (parts : List (List α)) :
    f (sep.intercalate parts) = (f sep).intercalate (parts.map f) := by
  induction parts with
  | nil => exact hnil
  | cons first more ih =>
    cases more with
    | nil => simp
    | cons second more =>
      rw [List.intercalate_cons_cons, happend, happend, ih]
      simp [List.intercalate_cons_cons]

/-- A margin in front of every part goes into the separator. -/
theorem intercalate_map_append (sep margin : List α) {parts : List (List α)} (h : parts ≠ []) :
    sep.intercalate (parts.map (margin ++ ·)) = margin ++ (sep ++ margin).intercalate parts := by
  obtain ⟨first, more, rfl⟩ := List.exists_cons_of_ne_nil h
  simp [intercalate_cons, List.flatMap_map]

/-- Parts that are joined before the others are as good as parts that are joined with them. -/
theorem intercalate_nested (sep : List α) (before after : List (List α)) {parts : List (List α)}
    (h : parts ≠ []) :
    sep.intercalate (before ++ sep.intercalate parts :: after) =
      sep.intercalate (before ++ parts ++ after) := by
  obtain ⟨first, more, rfl⟩ := List.exists_cons_of_ne_nil h
  cases before with
  | nil => simp [intercalate_cons]
  | cons top before => simp [intercalate_cons]

theorem not_mem_of_mem_splitOn [BEq α] [LawfulBEq α] {d : α} {text part : List α}
    (hpart : part ∈ text.splitOn d) : d ∉ part := by
  induction text generalizing part with
  | nil =>
    obtain rfl : part = [] := by simpa using hpart
    simp
  | cons c text ih =>
    rw [List.splitOn_cons_eq_if_modifyHead] at hpart
    split at hpart
    · rcases List.mem_cons.mp hpart with rfl | hpart
      · simp
      · exact ih hpart
    · next hc =>
      cases hsplit : text.splitOn d with
      | nil => exact absurd hsplit (List.splitOn_ne_nil d text)
      | cons first more =>
        rw [hsplit] at hpart ih
        rcases List.mem_cons.mp hpart with rfl | hpart
        · have hfirst := ih List.mem_cons_self
          have hne : d ≠ c := by
            rintro rfl
            exact hc (by simp)
          simp [hne, hfirst]
        · exact ih (List.mem_cons_of_mem _ hpart)

theorem mem_of_mem_splitOn [BEq α] [LawfulBEq α] {c d : α} {text part : List α}
    (hpart : part ∈ text.splitOn d) (hc : c ∈ part) : c ∈ text := by
  have hjoin : [d].intercalate (text.splitOn d) = text := List.intercalate_splitOn d
  rw [← hjoin]
  exact mem_intercalate hpart hc

end

end AmdBundle.Lists
