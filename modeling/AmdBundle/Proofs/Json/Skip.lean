import AmdBundle.Json.Skip
import AmdBundle.Proofs.Outcome
import Mathlib.Data.List.DropRight

/-!
# Skipping JSON values

* `Shrinks` : nothing is added to a text that is skipped; `shrinks_skipFrom` : whole values;
* `Extends` : what one reader skips another one skips too; `extends_skipFrom` : with more fuel, whatever
  was skipped with less;
* `skipFrom_skipSpace` : blanks before a value make no difference.
-/

set_option autoImplicit false

namespace AmdBundle.Json

/-! ## How much is left -/

/-- Nothing is added to a text. -/
def Shrinks (skipOne : Text → Except Fault Text) : Prop :=
  ∀ {text rest : Text}, skipOne text = .ok rest → rest.length ≤ text.length

theorem length_skipSpace_le (text : Text) : (skipSpace text).length ≤ text.length :=
  (List.dropWhile_sublist _).length_le

theorem shrinks_word (w : Text) : Shrinks (word w) := by
  induction w with
  | nil =>
    intro text rest h
    exact Nat.le_of_eq (congrArg List.length (Except.ok.inj h).symm)
  | cons c w ih =>
    intro text rest h
    cases text with
    | nil => cases h
    | cons d text =>
      rw [word] at h
      split at h
      · exact Nat.le_succ_of_le (ih h)
      · cases h

theorem length_of_readQuad {text rest : Text} {n : Nat} (h : readQuad text = .ok (n, rest)) :
    rest.length < text.length := by
  unfold readQuad at h
  split at h
  · split at h
    · obtain ⟨-, rfl⟩ := Prod.mk.inj (Except.ok.inj h)
      simp only [List.length_cons]
      omega
    · cases h
  · cases h

theorem length_of_skipEscape {text rest : Text} (h : skipEscape text = .ok rest) :
    rest.length < text.length := by
  cases text with
  | nil => cases h
  | cons c text =>
    rw [skipEscape] at h
    split at h
    · obtain ⟨⟨n, behind⟩, hquad, rfl⟩ := Outcome.map_eq_ok_iff.mp h
      exact Nat.lt_succ_of_lt (length_of_readQuad hquad)
    split at h
    · rw [← Except.ok.inj h]
      exact Nat.lt_succ_self _
    · cases h

theorem shrinks_skipStringFrom (fuel : Nat) : Shrinks (skipStringFrom fuel) := by
  induction fuel with
  | zero =>
    intro text rest h
    cases h
  | succ fuel ih =>
    intro text rest h
    cases text with
    | nil => cases h
    | cons c text =>
      rw [skipStringFrom] at h
      split at h
      · rw [← Except.ok.inj h]
        exact Nat.le_succ _
      split at h
      · obtain ⟨behind, hescape, h⟩ := Outcome.bind_eq_ok_iff.mp h
        have hlt := length_of_skipEscape hescape
        have hle := ih h
        rw [List.length_cons]
        omega
      split at h
      · cases h
      · exact Nat.le_succ_of_le (ih h)

theorem shrinks_skipString : Shrinks skipString := fun h => shrinks_skipStringFrom _ h

theorem length_exponentSign_le (text : Text) : (exponentSign text).2.length ≤ text.length := by
  unfold exponentSign
  split
  · exact Nat.le_succ _
  · exact Nat.le_succ _
  · exact Nat.le_refl _

theorem shrinks_skipExponent : Shrinks skipExponent := by
  intro text rest h
  have hsign := length_exponentSign_le text
  unfold skipExponent at h
  split at h
  · cases h
  · next c more heq =>
    split at h
    · have hdigits := (List.dropWhile_sublist Char.isDigit (l := more)).length_le
      rw [heq, List.length_cons] at hsign
      rw [← Except.ok.inj h]
      omega
    · cases h

theorem shrinks_skipTail : Shrinks skipTail := by
  intro text rest h
  unfold skipTail at h
  split at h
  · exact Nat.le_succ_of_le (shrinks_skipExponent h)
  · exact Nat.le_succ_of_le (shrinks_skipExponent h)
  · exact Nat.le_of_eq (congrArg List.length (Except.ok.inj h).symm)

theorem shrinks_skipFraction : Shrinks skipFraction := by
  intro text rest h
  unfold skipFraction at h
  split at h
  · cases h
  · exact Nat.le_trans (shrinks_skipTail h) (List.dropWhile_sublist _).length_le

theorem shrinks_skipAfterWhole : Shrinks skipAfterWhole := by
  intro text rest h
  unfold skipAfterWhole at h
  split at h
  · exact Nat.le_succ_of_le (shrinks_skipFraction h)
  · exact shrinks_skipTail h

theorem shrinks_skipNumber : Shrinks skipNumber := by
  intro text rest h
  unfold skipNumber at h
  split at h
  · cases h
  split at h
  · split at h
    · exact Nat.le_succ_of_le (shrinks_skipAfterWhole h)
    · cases h
  split at h
  · exact Nat.le_succ_of_le
      (Nat.le_trans (shrinks_skipAfterWhole h) (List.dropWhile_sublist _).length_le)
  · cases h

theorem shrinks_colon : Shrinks colon := by
  intro text rest h
  have hspace := length_skipSpace_le text
  unfold colon at h
  split at h
  · cases h
  · next heq =>
    rw [heq, List.length_cons] at hspace
    split at h
    · rw [← Except.ok.inj h]
      omega
    · cases h

theorem shrinks_skipKey : Shrinks skipKey := by
  intro text rest h
  have hspace := length_skipSpace_le text
  unfold skipKey at h
  split at h
  · cases h
  · next heq =>
    rw [heq, List.length_cons] at hspace
    split at h
    · obtain ⟨behind, hstring, h⟩ := Outcome.bind_eq_ok_iff.mp h
      have hle := shrinks_skipString hstring
      have hcolon := shrinks_colon h
      omega
    · cases h

section
variable {skipOne : Text → Except Fault Text} (hone : Shrinks skipOne)
include hone

theorem shrinks_skipItems (fuel : Nat) : Shrinks (skipItems skipOne fuel) := by
  induction fuel with
  | zero =>
    intro text rest h
    cases h
  | succ fuel ih =>
    intro text rest h
    obtain ⟨behind, hitem, h⟩ := Outcome.bind_eq_ok_iff.mp h
    have hle := hone hitem
    have hspace := length_skipSpace_le behind
    split at h
    · cases h
    · next heq =>
      rw [heq, List.length_cons] at hspace
      split at h
      · rw [← Except.ok.inj h]
        omega
      split at h
      · have hmore := ih h
        omega
      · cases h

theorem shrinks_skipList : Shrinks (skipList skipOne) := by
  intro text rest h
  have hspace := length_skipSpace_le text
  unfold skipList at h
  split at h
  · cases h
  · next heq =>
    rw [heq, List.length_cons] at hspace
    split at h
    · rw [← Except.ok.inj h]
      omega
    · have hitems := shrinks_skipItems hone _ h
      rw [List.length_cons] at hitems
      omega

theorem shrinks_skipMembers (fuel : Nat) : Shrinks (skipMembers skipOne fuel) := by
  induction fuel with
  | zero =>
    intro text rest h
    cases h
  | succ fuel ih =>
    intro text rest h
    obtain ⟨behindKey, hkey, h⟩ := Outcome.bind_eq_ok_iff.mp h
    obtain ⟨behind, hvalue, h⟩ := Outcome.bind_eq_ok_iff.mp h
    have hkeyLe := shrinks_skipKey hkey
    have hle := hone hvalue
    have hspace := length_skipSpace_le behind
    split at h
    · cases h
    · next heq =>
      rw [heq, List.length_cons] at hspace
      split at h
      · rw [← Except.ok.inj h]
        omega
      split at h
      · have hmore := ih h
        omega
      · cases h

theorem shrinks_skipObject : Shrinks (skipObject skipOne) := by
  intro text rest h
  have hspace := length_skipSpace_le text
  unfold skipObject at h
  split at h
  · cases h
  · next heq =>
    rw [heq, List.length_cons] at hspace
    split at h
    · rw [← Except.ok.inj h]
      omega
    · have hmembers := shrinks_skipMembers hone _ h
      rw [List.length_cons] at hmembers
      omega

end

theorem shrinks_skipFrom (fuel : Nat) : Shrinks (skipFrom fuel) := by
  induction fuel with
  | zero =>
    intro text rest h
    cases h
  | succ fuel ih =>
    intro text rest h
    have hspace := length_skipSpace_le text
    unfold skipFrom at h
    split at h
    · cases h
    next c more heq =>
    rw [heq, List.length_cons] at hspace
    suffices hmore : rest.length ≤ more.length + 1 by omega
    split at h
    · exact Nat.le_succ_of_le (shrinks_word _ h)
    split at h
    · exact Nat.le_succ_of_le (shrinks_word _ h)
    split at h
    · exact Nat.le_succ_of_le (shrinks_word _ h)
    split at h
    · exact Nat.le_succ_of_le (shrinks_skipString h)
    split at h
    · exact Nat.le_succ_of_le (shrinks_skipNumber h)
    split at h
    · exact shrinks_skipNumber h
    split at h
    · exact Nat.le_succ_of_le (shrinks_skipList ih h)
    split at h
    · exact Nat.le_succ_of_le (shrinks_skipObject ih h)
    · cases h

/-! ## How much fuel there is -/

/-- The second skips whatever the first skips, to the same place. -/
def Extends (skipOne skipOne' : Text → Except Fault Text) : Prop :=
  ∀ {text rest : Text}, skipOne text = .ok rest → skipOne' text = .ok rest

section
variable {skipOne skipOne' : Text → Except Fault Text} (h : Extends skipOne skipOne')
include h

theorem extends_skipItems (fuel : Nat) : Extends (skipItems skipOne fuel) (skipItems skipOne' fuel) := by
  induction fuel with
  | zero => exact id
  | succ fuel ih =>
    intro text rest hskip
    obtain ⟨behind, hitem, hskip⟩ := Outcome.bind_eq_ok_iff.mp hskip
    refine Outcome.bind_eq_ok_iff.mpr ⟨behind, h hitem, ?_⟩
    split at hskip
    · cases hskip
    · next heq =>
      split at hskip
      · next hclose => simpa [hclose] using hskip
      split at hskip
      · next hclose hcomma => simpa [hclose, hcomma] using ih hskip
      · cases hskip

theorem extends_skipList : Extends (skipList skipOne) (skipList skipOne') := by
  intro text rest hskip
  unfold skipList at hskip ⊢
  split at hskip
  · cases hskip
  · split at hskip
    · next hclose => rwa [if_pos hclose]
    · next hclose =>
      rw [if_neg hclose]
      exact extends_skipItems h _ hskip

theorem extends_skipMembers (fuel : Nat) :
    Extends (skipMembers skipOne fuel) (skipMembers skipOne' fuel) := by
  induction fuel with
  | zero => exact id
  | succ fuel ih =>
    intro text rest hskip
    obtain ⟨behindKey, hkey, hskip⟩ := Outcome.bind_eq_ok_iff.mp hskip
    obtain ⟨behind, hvalue, hskip⟩ := Outcome.bind_eq_ok_iff.mp hskip
    refine Outcome.bind_eq_ok_iff.mpr ⟨behindKey, hkey,
      Outcome.bind_eq_ok_iff.mpr ⟨behind, h hvalue, ?_⟩⟩
    split at hskip
    · cases hskip
    · next heq =>
      split at hskip
      · next hclose => simpa [hclose] using hskip
      split at hskip
      · next hclose hcomma => simpa [hclose, hcomma] using ih hskip
      · cases hskip

theorem extends_skipObject : Extends (skipObject skipOne) (skipObject skipOne') := by
  intro text rest hskip
  unfold skipObject at hskip ⊢
  split at hskip
  · cases hskip
  · split at hskip
    · next hclose => rwa [if_pos hclose]
    · next hclose =>
      rw [if_neg hclose]
      exact extends_skipMembers h _ hskip

end

theorem extends_skipFrom {fuel fuel' : Nat} (hle : fuel ≤ fuel') :
    Extends (skipFrom fuel) (skipFrom fuel') := by
  induction fuel generalizing fuel' with
  | zero =>
    intro text rest h
    cases h
  | succ fuel ih =>
    obtain ⟨fuel', rfl⟩ := Nat.exists_eq_succ_of_ne_zero (Nat.ne_zero_of_lt hle)
    have hmore : Extends (skipFrom fuel) (skipFrom fuel') := ih (Nat.le_of_succ_le_succ hle)
    intro text rest h
    unfold skipFrom at h ⊢
    split at h
    · cases h
    next c more heq =>
    by_cases hlist : c = '['
    · subst hlist
      exact extends_skipList hmore h
    by_cases hobject : c = '{'
    · subst hobject
      exact extends_skipObject hmore h
    simpa only [hlist, hobject, if_false] using h

theorem skipSpace_skipSpace (text : Text) : skipSpace (skipSpace text) = skipSpace text :=
  List.dropWhile_idempotent ..

theorem skipFrom_skipSpace (fuel : Nat) (text : Text) :
    skipFrom (fuel + 1) (skipSpace text) = skipFrom (fuel + 1) text := by
  rw [skipFrom, skipFrom, skipSpace_skipSpace]

end AmdBundle.Json
