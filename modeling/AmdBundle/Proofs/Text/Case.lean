import AmdBundle.Text.Basic
import Mathlib.Tactic.Common

/-!
# ASCII case

Beyond ASCII no character has two cases here, so a fact about the case of single characters is decided
on the first 128 of them.

* `forall_of_ascii` : how such a fact is proved;
* `lowerChar_upperChar`, `upperChar_lowerChar` : the last change of case decides;
* `capitalized` : a word with a capital in front; it does not depend on the case of the word.
-/

set_option autoImplicit false

namespace AmdBundle.Text

/-! ## Single characters -/

theorem lowerChar_of_le {c : Char} (h : 128 ≤ c.toNat) : lowerChar c = c := by
  unfold lowerChar
  refine if_neg fun hcase => ?_
  have hlast : c.toNat ≤ 'Z'.toNat := hcase.2
  have hZ : 'Z'.toNat = 90 := rfl
  omega

theorem upperChar_of_le {c : Char} (h : 128 ≤ c.toNat) : upperChar c = c := by
  unfold upperChar
  refine if_neg fun hcase => ?_
  have hlast : c.toNat ≤ 'z'.toNat := hcase.2
  have hz : 'z'.toNat = 122 := rfl
  omega

/-- What holds of the ASCII characters, and of all that have one case, holds of every character. -/
theorem forall_of_ascii {P : Char → Prop} (hascii : ∀ n < 128, P (Char.ofNat n))
    (hother : ∀ c : Char, 128 ≤ c.toNat → lowerChar c = c → upperChar c = c → P c) (c : Char) :
    P c := by
  by_cases hc : c.toNat < 128
  · rw [← Char.ofNat_toNat c]
    exact hascii c.toNat hc
  · have hle : 128 ≤ c.toNat := Nat.le_of_not_lt hc
    exact hother c hle (lowerChar_of_le hle) (upperChar_of_le hle)

theorem upperChar_lowerChar (c : Char) : upperChar (lowerChar c) = upperChar c := by
  refine forall_of_ascii (P := fun c => upperChar (lowerChar c) = upperChar c) (by decide) ?_ c
  intro c _ hlower _
  rw [hlower]

theorem lowerChar_lowerChar (c : Char) : lowerChar (lowerChar c) = lowerChar c := by
  refine forall_of_ascii (P := fun c => lowerChar (lowerChar c) = lowerChar c) (by decide) ?_ c
  intro c _ hlower _
  rw [hlower, hlower]

theorem lowerChar_upperChar (c : Char) : lowerChar (upperChar c) = lowerChar c := by
  refine forall_of_ascii (P := fun c => lowerChar (upperChar c) = lowerChar c) (by decide) ?_ c
  intro c _ _ hupper
  rw [hupper]

theorem lowerChar_eq_sign_iff (c : Char) : lowerChar c = '_' ↔ c = '_' := by
  refine forall_of_ascii (P := fun c => lowerChar c = '_' ↔ c = '_') (by decide) ?_ c
  intro c _ hlower _
  rw [hlower]

theorem isAlpha_of_le {c : Char} (h : 128 ≤ c.toNat) : c.isAlpha = false := by
  have hbehind : ∀ d : Char, d.toNat < 128 → ¬ c.val ≤ d.val := fun d hd hle => by
    have hnat : c.toNat ≤ d.toNat := UInt32.le_iff_toNat_le.mp hle
    omega
  have hupper : c.isUpper = false :=
    decide_eq_false fun hcase => hbehind 'Z' (by decide) hcase.2
  have hlower : c.isLower = false := by
    show (decide (c.val ≥ 'a'.val) && decide (c.val ≤ 'z'.val)) = false
    rw [decide_eq_false (hbehind 'z' (by decide)), Bool.and_false]
  show (c.isUpper || c.isLower) = false
  rw [hupper, hlower, Bool.or_false]

/-- A letter in one case is a letter in the other. -/
theorem isLower_lowerChar {c : Char}
    (h : (lowerChar c).isAlpha = true ∨ (upperChar c).isAlpha = true) :
    (lowerChar c).isLower = true := by
  revert h
  refine forall_of_ascii (P := fun c => (lowerChar c).isAlpha = true ∨ (upperChar c).isAlpha = true →
    (lowerChar c).isLower = true) (by decide) ?_ c
  intro c hc hlower hupper h
  rw [hlower, hupper, isAlpha_of_le hc] at h
  simp at h

theorem isLower_upperChar (c : Char) : (upperChar c).isLower = false := by
  refine forall_of_ascii (P := fun c => (upperChar c).isLower = false) (by decide) ?_ c
  intro c hc _ hupper
  have halpha := isAlpha_of_le hc
  rw [hupper]
  exact (Bool.or_eq_false_iff.mp halpha).2

theorem of_isLower {c : Char} (h : c.isLower = true) :
    lowerChar c = c ∧ (upperChar c).isUpper = true ∧ c.isUpper = false := by
  revert h
  refine forall_of_ascii (P := fun c => c.isLower = true →
    lowerChar c = c ∧ (upperChar c).isUpper = true ∧ c.isUpper = false) (by decide) ?_ c
  intro c hc _ _ h
  have halpha : c.isAlpha = true := Bool.or_eq_true_iff.mpr (.inr h)
  rw [isAlpha_of_le hc] at halpha
  cases halpha

/-! ## Words -/

/-- A word with a capital in front and small letters behind it. -/
def capitalized : Text → Text
  | [] => []
  | c :: rest => upperChar c :: asciiLower rest

theorem asciiLower_asciiLower (word : Text) : asciiLower (asciiLower word) = asciiLower word := by
  simp [asciiLower, lowerChar_lowerChar]

theorem asciiLower_of_isLower {word : Text} (h : ∀ c ∈ word, c.isLower = true) :
    asciiLower word = word :=
  (List.map_congr_left fun c hc => (of_isLower (h c hc)).1).trans (List.map_id word)

theorem capitalized_asciiLower (word : Text) : capitalized (asciiLower word) = capitalized word := by
  cases word with
  | nil => rfl
  | cons c rest =>
    show upperChar (lowerChar c) :: asciiLower (asciiLower rest) = upperChar c :: asciiLower rest
    rw [upperChar_lowerChar, asciiLower_asciiLower]

theorem asciiLower_capitalized (word : Text) : asciiLower (capitalized word) = asciiLower word := by
  cases word with
  | nil => rfl
  | cons c rest =>
    show lowerChar (upperChar c) :: asciiLower (asciiLower rest) = lowerChar c :: asciiLower rest
    rw [lowerChar_upperChar, asciiLower_asciiLower]

end AmdBundle.Text
