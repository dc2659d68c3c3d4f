import AmdBundle.Text.Utf8
import Mathlib.Data.List.Lex

/-!
# The order of names

* `before_trans`, `before_total`, `before_antisymm` : names are in a line;
* `encode_lt_of_before` : they stand there in the order of their UTF-8 bytes.
-/

set_option autoImplicit false

namespace AmdBundle.Text

/-! ## By code points -/

theorem before_cons_self (c : Char) (a b : Text) : before (c :: a) (c :: b) = before a b := by
  simp [before]

theorem before_cons_ne {c d : Char} (h : c ≠ d) (a b : Text) :
    before (c :: a) (d :: b) = true ↔ c.toNat < d.toNat := by
  simp [before, h]

theorem before_trans {a b c : Text} (hab : before a b = true) (hbc : before b c = true) :
    before a c = true := by
  induction a generalizing b c with
  | nil => rfl
  | cons x a ih =>
    cases b with
    | nil => cases hab
    | cons y b =>
      cases c with
      | nil => cases hbc
      | cons z c =>
        by_cases hxy : x = y
        · subst hxy
          by_cases hxz : x = z
          · subst hxz
            rw [before_cons_self] at hab hbc ⊢
            exact ih hab hbc
          · rw [before_cons_ne hxz] at hbc ⊢
            exact hbc
        · rw [before_cons_ne hxy] at hab
          by_cases hyz : y = z
          · subst hyz
            exact (before_cons_ne hxy _ _).mpr hab
          · rw [before_cons_ne hyz] at hbc
            have hlt : x.toNat < z.toNat := Nat.lt_trans hab hbc
            have hne : x ≠ z := by
              rintro rfl
              exact Nat.lt_irrefl _ hlt
            exact (before_cons_ne hne _ _).mpr hlt

theorem before_total {a b : Text} (h : before a b ≠ true) : before b a = true := by
  induction a generalizing b with
  | nil => exact absurd rfl h
  | cons x a ih =>
    cases b with
    | nil => rfl
    | cons y b =>
      by_cases hxy : x = y
      · subst hxy
        rw [before_cons_self] at h ⊢
        exact ih h
      · have hne : x.toNat ≠ y.toNat := fun hnat => hxy (Char.toNat_inj.mp hnat)
        have hge : ¬ x.toNat < y.toNat := fun hlt => h ((before_cons_ne hxy _ _).mpr hlt)
        exact (before_cons_ne (Ne.symm hxy) _ _).mpr (by omega)

theorem before_antisymm {a b : Text} (hab : before a b = true) (hba : before b a = true) : a = b := by
  induction a generalizing b with
  | nil =>
    cases b with
    | nil => rfl
    | cons y b => cases hba
  | cons x a ih =>
    cases b with
    | nil => cases hab
    | cons y b =>
      by_cases hxy : x = y
      · subst hxy
        rw [before_cons_self] at hab hba
        rw [ih hab hba]
      · rw [before_cons_ne hxy] at hab
        rw [before_cons_ne (Ne.symm hxy)] at hba
        omega

/-! ## By bytes -/

theorem encode_cons (c : Char) (text : Text) :
    encode (c :: text) = String.utf8EncodeChar c ++ encode text := by
  simp [encode, List.utf8Encode]

theorem ofNat_cons_lt {a b : Nat} (ha : a < 256) (hb : b < 256) {u v : Bytes} :
    UInt8.ofNat a :: u < UInt8.ofNat b :: v ↔ a < b ∨ a = b ∧ u < v := by
  rw [List.cons_lt_cons_iff, UInt8.lt_iff_toNat_lt, ← UInt8.toNat_inj, UInt8.toNat_ofNat_of_lt' ha,
    UInt8.toNat_ofNat_of_lt' hb]

/-- The lower six bits decide where all others agree. -/
theorem sixBits_lt {m n : Nat} (h : m < n) :
    m / 64 < n / 64 ∨ m / 64 = n / 64 ∧ m % 64 < n % 64 := by
  omega

/-- The bytes of two characters differ before either ends, and as their code points do. -/
theorem utf8EncodeChar_lt {c d : Char} (h : c.toNat < d.toNat) (u v : Bytes) :
    String.utf8EncodeChar c ++ u < String.utf8EncodeChar d ++ v := by
  have hd : d.toNat < 0x110000 := by
    rcases d.valid with hlow | hhigh
    · exact Nat.lt_trans hlow (by decide)
    · exact hhigh.2
  unfold String.utf8EncodeChar
  simp only [show ∀ c : Char, c.val.toNat = c.toNat from fun _ => rfl]
  generalize c.toNat = m at h
  generalize d.toNat = n at h hd
  have hm : m / 64 / 64 = m / 4096 ∧ m / 4096 / 64 = m / 262144 := by
    constructor <;> rw [Nat.div_div_eq_div_mul]
  have hn : n / 64 / 64 = n / 4096 ∧ n / 4096 / 64 = n / 262144 := by
    constructor <;> rw [Nat.div_div_eq_div_mul]
  obtain ⟨hm1, hm2⟩ := hm
  obtain ⟨hn1, hn2⟩ := hn
  -- A longer form begins with a greater byte.
  repeat' split
  all_goals
    simp only [List.cons_append, List.nil_append]
    repeat rw [ofNat_cons_lt (by omega) (by omega)]
  any_goals omega
  -- Of two characters of four bytes the first different byte decides.
  rcases sixBits_lt h with h1 | ⟨h1, hlast⟩
  · rcases sixBits_lt h1 with h2 | ⟨h2, hlast⟩
    · rcases sixBits_lt h2 with h3 | ⟨h3, hlast⟩
      · omega
      · omega
    · omega
  · omega

/-- **Names are ordered by their bytes.** -/
theorem encode_lt_of_before {a b : Text} (h : before a b = true) (hne : a ≠ b) :
    encode a < encode b := by
  induction a generalizing b with
  | nil =>
    cases b with
    | nil => exact absurd rfl hne
    | cons d b =>
      obtain ⟨first, more, hbytes⟩ := List.exists_cons_of_ne_nil (String.utf8EncodeChar_ne_nil (c := d))
      rw [encode_cons, hbytes]
      exact List.nil_lt_cons first _
  | cons c a ih =>
    cases b with
    | nil => cases h
    | cons d b =>
      rw [encode_cons, encode_cons]
      by_cases hcd : c = d
      · subst hcd
        rw [before_cons_self] at h
        exact List.append_left_lt (ih h fun hab => hne (congrArg _ hab))
      · exact utf8EncodeChar_lt ((before_cons_ne hcd a b).mp h) _ _

end AmdBundle.Text
