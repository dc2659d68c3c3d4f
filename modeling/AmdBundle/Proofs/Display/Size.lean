import AmdBundle.Display.Size
import AmdBundle.Proofs.Number.Places
import AmdBundle.Proofs.Number.Rounding
import AmdBundle.Proofs.ResourceKey
import Mathlib.Algebra.Order.Field.Basic
import Mathlib.Tactic.FieldSimp
import Mathlib.Tactic.Linarith

/-!
# What printed sizes say

The unit of a size is chosen before its number is rounded to two places, so a number just below 1024 is
printed as 1024 of a unit, and not as one of the next.

* `readSize?` : the number and the unit in a printed size;
* `readSize?_formatSize` : what is read is the rounded quotient, in the greatest unit that fits;
* `near_hundredths` : it is at most half a hundredth away;
* `hundredths_mul_mono` : a greater count is not printed as a smaller amount;
* `prints_fitting` : all that a printed size says, and when its number is below 1024.
-/

set_option autoImplicit false

namespace AmdBundle.Display
open Number

/-! ## Reading a size -/

/-- How many bytes one unit is. -/
def SizeUnit.bytes (unit : SizeUnit) : Nat :=
  1024 ^ unit.power

def SizeUnit.ofName? (name : Text) : Option SizeUnit :=
  [byte, kilo, mega, giga].find? fun unit => unit.name.toList == name

/-- The number in a printed size, and its unit. -/
def readSize? (text : Text) : Option (Rat × SizeUnit) := do
  let (number, name) ← Text.splitOnce ' ' text
  let spelled ← Spelled.parse? number
  let unit ← SizeUnit.ofName? name
  some (spelled.value, unit)

variable {n m : Nat}

theorem SizeUnit.ofName?_name (unit : SizeUnit) : ofName? unit.name.toList = some unit := by
  cases unit <;> decide

theorem SizeUnit.bytes_pos (unit : SizeUnit) : 0 < unit.bytes :=
  Nat.pow_pos (by decide)

theorem heldCount_eq (h : n < 2 ^ 53) : heldCount n = n := by
  obtain ⟨x, hx, hratio⟩ := Binary64.ratio_ofNat h
  unfold heldCount
  rw [hx]
  exact hratio

theorem blank_not_mem_pointed (h : Nat) : ' ' ∉ pointed h := by
  have hdigits : ∀ k, ' ' ∉ Text.ofNat k := fun k hmem =>
    absurd (Json.isDigit_of_mem_ofNat hmem) (by decide)
  unfold pointed
  simp [hdigits]

/-! ## The unit -/

theorem fitting_bounds (h : 1024 ≤ n) : SizeUnit.fitting n ≠ .byte ∧
    (SizeUnit.fitting n).bytes ≤ n ∧
      (SizeUnit.fitting n = .giga ∨ n < 1024 * (SizeUnit.fitting n).bytes) := by
  unfold SizeUnit.fitting
  split
  · omega
  · split
    · next hlt => exact ⟨nofun, h, .inr hlt⟩
    · next hle =>
      split
      · next hlt => exact ⟨nofun, Nat.le_of_not_lt hle, .inr hlt⟩
      · next hle => exact ⟨nofun, Nat.le_of_not_lt hle, .inl rfl⟩

/-- Of two units that differ, the smaller one is not the greatest, and goes 1024 times into the other. -/
theorem SizeUnit.eq_or_bytes_le (unit unit' : SizeUnit) : unit = unit' ∨
    (unit ≠ .giga ∧ 1024 * unit.bytes ≤ unit'.bytes) ∨
      (unit' ≠ .giga ∧ 1024 * unit'.bytes ≤ unit.bytes) := by
  cases unit <;> cases unit' <;> decide

/-- A greater count has the same unit, or a greater one that the smaller count does not reach. -/
theorem fitting_eq_or (h : 1024 ≤ n) (hle : n ≤ m) : SizeUnit.fitting n = SizeUnit.fitting m ∨
    n < 1024 * (SizeUnit.fitting n).bytes ∧
      1024 * (SizeUnit.fitting n).bytes ≤ (SizeUnit.fitting m).bytes := by
  obtain ⟨-, hlow, hhigh⟩ := fitting_bounds h
  obtain ⟨-, -, hhigh'⟩ := fitting_bounds (h.trans hle)
  rcases SizeUnit.eq_or_bytes_le (SizeUnit.fitting n) (SizeUnit.fitting m) with
    heq | ⟨hgiga, hnext⟩ | ⟨hgiga, hnext⟩
  · exact .inl heq
  · exact .inr ⟨hhigh.resolve_left hgiga, hnext⟩
  · have hlt := hhigh'.resolve_left hgiga
    omega

/-! ## The number -/

theorem hundred_le_hundredths {d : Nat} (hd : 0 < d) (h : d ≤ n) : 100 ≤ hundredths n d := by
  have hround := roundDiv_mono hd (show d * 100 ≤ 100 * n by omega)
  rwa [roundDiv_mul hd] at hround

theorem hundredths_le {d : Nat} (hd : 0 < d) (h : n ≤ 1024 * d) : hundredths n d ≤ 102400 := by
  have hround := roundDiv_mono hd (show 100 * n ≤ d * 102400 by omega)
  rwa [roundDiv_mul hd] at hround

theorem hundredths_lt_iff {d : Nat} (hd : 0 < d) :
    hundredths n d < 102400 ↔ 200 * n < 204799 * d := by
  unfold hundredths
  rw [roundDiv_lt_iff_of_even hd (by decide)]
  omega

/-- **A number of hundredths is at most half a hundredth away.** -/
theorem near_hundredths (n : Nat) {d : Nat} (hd : 0 < d) :
    |(hundredths n d : Rat) / 100 - n / d| ≤ 1 / 200 := by
  obtain ⟨hlow, hhigh⟩ := roundDiv_bounds (100 * n) hd
  have hlow' : (2 * (100 * n) : Rat) ≤ 2 * (d * hundredths n d) + d := by exact_mod_cast hlow
  have hhigh' : (2 * (d * hundredths n d) : Rat) ≤ 2 * (100 * n) + d := by exact_mod_cast hhigh
  have hpos : (0 : Rat) < d := by exact_mod_cast hd
  have hsub : (hundredths n d : Rat) / 100 - n / d = (d * hundredths n d - 100 * n) / (100 * d) := by
    field_simp
  have hden : (0 : Rat) < 100 * d := by linarith
  rw [hsub, abs_div, abs_of_pos hden, div_le_iff₀ hden, abs_le]
  constructor <;> linarith

/-- **A greater count is not printed as a smaller amount.** -/
theorem hundredths_mul_mono (h : 1024 ≤ n) (hle : n ≤ m) :
    hundredths n (SizeUnit.fitting n).bytes * (SizeUnit.fitting n).bytes ≤
      hundredths m (SizeUnit.fitting m).bytes * (SizeUnit.fitting m).bytes := by
  have hpos := (SizeUnit.fitting n).bytes_pos
  rcases fitting_eq_or h hle with heq | ⟨hlt, hnext⟩
  · rw [← heq]
    exact Nat.mul_le_mul_right _ (roundDiv_mono hpos (Nat.mul_le_mul_left 100 hle))
  · have hpos' := (SizeUnit.fitting m).bytes_pos
    have hfits := (fitting_bounds (h.trans hle)).2.1
    calc hundredths n (SizeUnit.fitting n).bytes * (SizeUnit.fitting n).bytes
        ≤ 102400 * (SizeUnit.fitting n).bytes :=
          Nat.mul_le_mul_right _ (hundredths_le hpos hlt.le)
      _ = 100 * (1024 * (SizeUnit.fitting n).bytes) := by rw [← Nat.mul_assoc]
      _ ≤ 100 * (SizeUnit.fitting m).bytes := Nat.mul_le_mul_left 100 hnext
      _ ≤ _ := Nat.mul_le_mul_right _ (hundred_le_hundredths hpos' hfits)

/-- What is read is the rounded quotient, in the greatest unit that fits. -/
theorem readSize?_formatSize (h : 1024 ≤ n) (hlt : n < 2 ^ 53) : readSize? (formatSize n) =
    some ((hundredths n (SizeUnit.fitting n).bytes : Rat) / 100, SizeUnit.fitting n) := by
  have htext : formatSize n = pointed (hundredths n (SizeUnit.fitting n).bytes) ++
      ' ' :: (SizeUnit.fitting n).name.toList := by
    unfold formatSize
    dsimp only
    rw [if_neg (fitting_bounds h).1, heldCount_eq hlt]
    rfl
  have hsplit : Text.splitOnce ' ' (formatSize n) =
      some (pointed (hundredths n (SizeUnit.fitting n).bytes), (SizeUnit.fitting n).name.toList) :=
    Text.splitOnce_eq_some_iff.mpr ⟨htext, blank_not_mem_pointed _⟩
  unfold readSize?
  rw [hsplit]
  simp only [Option.bind_eq_bind, Option.bind_some, parse?_pointed, SizeUnit.ofName?_name,
    value_pointed]

/-! ## What a size says -/

/-- A count of bytes is printed as so many of a unit. -/
structure PrintsAs (n : Nat) (number : Rat) (unit : SizeUnit) : Prop where
  read : readSize? (formatSize n) = some (number, unit)
  fits : unit.bytes ≤ n ∧ (unit = .giga ∨ n < 1024 * unit.bytes)
  one_le : 1 ≤ number
  /-- The last half of a hundredth below 1024 is rounded up to it. -/
  lt_iff : number < 1024 ↔ 200 * n < 204799 * unit.bytes
  near : |number - n / unit.bytes| ≤ 1 / 200
  mono : ∀ m, n ≤ m → m < 2 ^ 53 → ∀ number' unit',
    readSize? (formatSize m) = some (number', unit') → number * unit.bytes ≤ number' * unit'.bytes

/-- **A count is printed in the greatest unit that fits**, with a number that is not less than one,
and less than 1024 unless it is rounded up to it. -/
theorem prints_fitting (h : 1024 ≤ n) (hlt : n < 2 ^ 53) :
    ∃ number unit, PrintsAs n number unit := by
  have hpos := (SizeUnit.fitting n).bytes_pos
  have hfits := (fitting_bounds h).2
  refine ⟨_, _, readSize?_formatSize h hlt, hfits, ?_, ?_, near_hundredths n hpos, ?_⟩
  · have hone : (100 : Rat) ≤ hundredths n (SizeUnit.fitting n).bytes := by
      exact_mod_cast hundred_le_hundredths hpos hfits.1
    linarith
  · have hcast : (hundredths n (SizeUnit.fitting n).bytes : Rat) < 102400 ↔
        hundredths n (SizeUnit.fitting n).bytes < 102400 := by norm_cast
    rw [div_lt_iff₀ (by norm_num), ← hundredths_lt_iff hpos, ← hcast]
    norm_num
  · intro m hle hm number' unit' hread
    rw [readSize?_formatSize (h.trans hle) hm, Option.some.injEq, Prod.mk.injEq] at hread
    obtain ⟨rfl, rfl⟩ := hread
    have hmono : (hundredths n (SizeUnit.fitting n).bytes * (SizeUnit.fitting n).bytes : Rat) ≤
        hundredths m (SizeUnit.fitting m).bytes * (SizeUnit.fitting m).bytes := by
      exact_mod_cast hundredths_mul_mono h hle
    linarith

/-- One byte less than a megabyte. -/
theorem prints_fitting_below_mega : 1024 ≤ 1048575 ∧ 1048575 < 2 ^ 53 ∧
    formatSize 1048575 = "1024.00 KB".toList ∧ PrintsAs 1048575 1024 .kilo := by
  have hread : readSize? (formatSize 1048575) = some (1024, .kilo) := by
    decide +kernel
  obtain ⟨number, unit, hprints⟩ := prints_fitting (n := 1048575) (by decide) (by decide)
  obtain ⟨rfl, rfl⟩ := Prod.mk.inj (Option.some.inj (hprints.read.symm.trans hread))
  exact ⟨by decide, by decide, by decide +kernel, hprints⟩

end AmdBundle.Display
