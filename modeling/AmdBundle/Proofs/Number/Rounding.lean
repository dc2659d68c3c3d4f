import AmdBundle.Number.Binary64
import Mathlib.Tactic.Ring

/-!
# Rounding

* `roundDiv_bounds` : a rounded quotient is at most half a unit away;
* `roundDiv_mono` : a greater number is not rounded to a smaller one;
* `roundDiv_eq_or` : the difference from rounding half up; `roundDiv_lt_iff_of_even` : where rounding
  reaches an even number;
* `Binary64.ratio_ofNat` : a natural number below `2 ^ 53` is held as it is.
-/

set_option autoImplicit false

namespace AmdBundle.Number

/-! ## Quotients -/

section
variable {n m d k : Nat}

theorem roundDiv_bounds (n : Nat) (hd : 0 < d) :
    2 * n ≤ 2 * (d * roundDiv n d) + d ∧ 2 * (d * roundDiv n d) ≤ 2 * n + d := by
  have hn := Nat.div_add_mod n d
  have hr := Nat.mod_lt n hd
  have hsucc : d * (n / d + 1) = d * (n / d) + d := Nat.mul_succ d (n / d)
  unfold roundDiv
  dsimp only
  split
  · omega
  · split
    · omega
    · rcases Nat.mod_two_eq_zero_or_one (n / d) with heven | hodd
      · rw [heven, Nat.add_zero]
        omega
      · rw [hodd]
        omega

theorem roundDiv_mul (hd : 0 < d) (k : Nat) : roundDiv (d * k) d = k := by
  unfold roundDiv
  dsimp only
  rw [Nat.mul_mod_right, Nat.mul_div_cancel_left k hd, if_pos hd]

theorem roundDiv_one (n : Nat) : roundDiv n 1 = n := by
  have h := roundDiv_mul Nat.one_pos n
  rwa [Nat.one_mul] at h

theorem roundDiv_mono (hd : 0 < d) (h : n ≤ m) : roundDiv n d ≤ roundDiv m d := by
  by_contra hlt
  have hstep : d * (roundDiv m d + 1) ≤ d * roundDiv n d :=
    Nat.mul_le_mul_left d (Nat.lt_of_not_le hlt)
  have hsucc : d * (roundDiv m d + 1) = d * roundDiv m d + d := Nat.mul_succ d _
  have hlow := (roundDiv_bounds n hd).2
  have hhigh := (roundDiv_bounds m hd).1
  -- only two equal numbers could be that near to both
  have heq : n = m := by omega
  exact hlt (heq ▸ Nat.le_refl _)

/-- Rounding half up gives the same, but for a tie below an odd number. -/
theorem roundDiv_eq_or (n : Nat) (hd : 0 < d) : roundDiv n d = (2 * n + d) / (2 * d) ∨
    (2 * n + d) / (2 * d) % 2 = 1 ∧ roundDiv n d + 1 = (2 * n + d) / (2 * d) := by
  have hn := Nat.div_add_mod n d
  have hr := Nat.mod_lt n hd
  have hquotient : ∀ j, 2 * (d * j) ≤ 2 * n + d → 2 * n + d < 2 * (d * j) + 2 * d →
      (2 * n + d) / (2 * d) = j := by
    intro j hlow hhigh
    refine Nat.div_eq_of_lt_le ?_ ?_
    · rwa [show j * (2 * d) = 2 * (d * j) by ring]
    · rwa [show (j + 1) * (2 * d) = 2 * (d * j) + 2 * d by ring]
  have hsucc : d * (n / d + 1) = d * (n / d) + d := Nat.mul_succ d (n / d)
  unfold roundDiv
  dsimp only
  split
  · rw [hquotient (n / d) (by omega) (by omega)]
    exact .inl rfl
  · split
    · rw [hquotient (n / d + 1) (by omega) (by omega)]
      exact .inl rfl
    · rw [hquotient (n / d + 1) (by omega) (by omega)]
      omega

/-- Half way below an even number, rounding goes up. -/
theorem roundDiv_lt_iff_of_even (hd : 0 < d) (hk : k % 2 = 0) :
    roundDiv n d < k ↔ 2 * n + d < k * (2 * d) := by
  rw [← Nat.div_lt_iff_lt_mul (by omega : 0 < 2 * d)]
  have hround := roundDiv_eq_or n hd
  omega

end

/-! ## Natural numbers in binary floating point -/

namespace Binary64

theorem scaled_neg (n k : Nat) : scaled n 1 (-(k : Int)) = (n * 2 ^ k, 1) := by
  unfold scaled
  cases k with
  | zero => simp
  | succ k =>
    rw [if_neg (by omega)]
    have hk : (-(-((k + 1 : Nat) : Int))).toNat = k + 1 := by omega
    rw [hk]
    rfl

theorem ratio_neg (m k : Nat) : ratio ⟨false, m, -(k : Int)⟩ = (m, 2 ^ k) := by
  unfold ratio
  cases k with
  | zero => simp
  | succ k =>
    dsimp only
    rw [if_neg (by omega)]
    have hk : (-(-((k + 1 : Nat) : Int))).toNat = k + 1 := by omega
    rw [hk]
    rfl

theorem exponentOf_one {n k : Nat} (hn : n ≠ 0) (hk : Nat.log2 n + k = 52) :
    exponentOf n 1 = -(k : Int) := by
  have hguess : (Nat.log2 n : Int) - (Nat.log2 1 : Int) - 53 = -((k + 1 : Nat) : Int) := by
    have hone : Nat.log2 1 = 0 := rfl
    rw [hone]
    omega
  have hlarge : ¬ n * 2 ^ (k + 1) < 2 ^ 53 := by
    have hlog : 2 ^ Nat.log2 n ≤ n := Nat.log2_self_le hn
    have hpow : 2 ^ Nat.log2 n * 2 ^ (k + 1) = 2 ^ 53 := by
      rw [← Nat.pow_add, show Nat.log2 n + (k + 1) = 53 by omega]
    exact Nat.not_lt.mpr (hpow ▸ Nat.mul_le_mul_right _ hlog)
  unfold exponentOf
  simp only [hguess, scaled_neg, Nat.div_one, Nat.pow_eq, if_neg hlarge]
  unfold minExponent
  omega

/-- **A natural number below `2 ^ 53` is held as it is.** -/
theorem ratio_ofNat {n : Nat} (h : n < 2 ^ 53) :
    ∃ x, ofNat n = some x ∧ x.ratio.1 / x.ratio.2 = n := by
  by_cases hn : n = 0
  · subst hn
    refine ⟨zero, rfl, ?_⟩
    obtain ⟨k, hk⟩ : ∃ k : Nat, zero = ⟨false, 0, -(k : Int)⟩ := ⟨1074, rfl⟩
    rw [hk, ratio_neg]
    exact Nat.zero_div _
  · have hlog : Nat.log2 n < 53 := (Nat.log2_lt hn).mpr h
    obtain ⟨k, hk⟩ : ∃ k, Nat.log2 n + k = 52 := ⟨52 - Nat.log2 n, by omega⟩
    have hsmall : n * 2 ^ k < 2 ^ 53 := by
      have hpow : 2 ^ (Nat.log2 n + 1) * 2 ^ k = 2 ^ 53 := by
        rw [← Nat.pow_add, show Nat.log2 n + 1 + k = 53 by omega]
      exact hpow ▸ Nat.mul_lt_mul_of_pos_right Nat.lt_log2_self (Nat.two_pow_pos k)
    refine ⟨⟨false, n * 2 ^ k, -(k : Int)⟩, ?_, ?_⟩
    · have hexponent : ¬ maxExponent < -(k : Int) := by
        unfold maxExponent
        omega
      unfold ofNat nearest
      simp only [if_neg hn, exponentOf_one hn hk, scaled_neg, roundDiv_one, Nat.pow_eq,
        if_neg hsmall.ne, if_neg hexponent]
    · rw [ratio_neg]
      exact Nat.mul_div_cancel n (Nat.two_pow_pos k)

end Binary64

end AmdBundle.Number
