import AmdBundle.Number.Decimal
import AmdBundle.Number.Places
import AmdBundle.Proofs.Json.Lexeme
import Mathlib.Algebra.Order.Field.Rat
import Mathlib.Tactic.NormNum
import Mathlib.Tactic.Ring

/-!
# Two places are read back

* `Spelled.value` : the number that is spelled;
* `digitsValue_ofNat` : the digits of a number have its value;
* `parse?_pointed` : a number of hundredths is read back as it was written.
-/

set_option autoImplicit false

namespace AmdBundle.Number
open Json (isDigit_of_mem_ofNat)

/-- The number that is spelled. -/
def Spelled.value (s : Spelled) : Rat :=
  (if s.negative then -1 else 1) * s.digits * (10 : Rat) ^ s.exponent

/-! ## Digits -/

theorem digitsValue_eq (digits : Text) : digitsValue digits = Nat.ofDigitChars 10 digits 0 := by
  unfold digitsValue Nat.ofDigitChars
  congr 1
  funext n c
  rw [Nat.mul_comm]
  rfl

theorem digitsValue_ofNat (n : Nat) : digitsValue (Text.ofNat n) = n := by
  rw [digitsValue_eq]
  exact Nat.ofDigitChars_toDigits (by decide) (by decide)

theorem ofNat_of_lt_ten {n : Nat} (hn : n < 10) : Text.ofNat n = [n.digitChar] :=
  Nat.toDigits_of_lt_base hn

theorem digitsValue_concat (digits : Text) {n : Nat} (hn : n < 10) :
    digitsValue (digits ++ Text.ofNat n) = digitsValue digits * 10 + n := by
  have hdigit : ∀ n < 10, n.digitChar.toNat - 48 = n := by decide
  rw [ofNat_of_lt_ten hn, digitsValue, List.foldl_append, List.foldl_cons, List.foldl_nil, hdigit n hn]
  rfl

theorem readSign_of_isDigit {c : Char} (hc : c.isDigit = true) (rest : Text) :
    readSign (c :: rest) = (false, c :: rest) := by
  unfold readSign
  split
  · next heq =>
    obtain ⟨rfl, -⟩ := List.cons.inj heq
    cases hc
  · next heq =>
    obtain ⟨rfl, -⟩ := List.cons.inj heq
    cases hc
  · rfl

/-- Digits with a point among them are read as the number of all digits, less the places. -/
theorem parse?_digits {front back : Text} (hne : front ≠ [])
    (hfront : ∀ c ∈ front, c.isDigit = true) (hback : ∀ c ∈ back, c.isDigit = true) :
    Spelled.parse? (front ++ '.' :: back) =
      some ⟨false, digitsValue (front ++ back), -(back.length : Int)⟩ := by
  have hsign : readSign (front ++ '.' :: back) = (false, front ++ '.' :: back) := by
    obtain ⟨c, digits, rfl⟩ := List.exists_cons_of_ne_nil hne
    exact readSign_of_isDigit (hfront c List.mem_cons_self) _
  have htake : (front ++ '.' :: back).takeWhile Char.isDigit = front := by
    rw [List.takeWhile_append_of_pos hfront, List.takeWhile_cons_of_neg (by decide), List.append_nil]
  have hdrop : (front ++ '.' :: back).dropWhile Char.isDigit = '.' :: back := by
    rw [List.dropWhile_append_of_pos hfront, List.dropWhile_cons_of_neg (by decide)]
  obtain ⟨htake', hdrop'⟩ := Json.takeWhile_digits hback Json.endsNumber_nil
  rw [List.append_nil] at htake' hdrop'
  unfold Spelled.parse?
  simp only [hsign, htake, hdrop, htake', hdrop', List.isEmpty_eq_false_iff.mpr hne, readPower,
    Bool.false_and, Bool.false_eq_true, if_false, Option.map_some, Int.zero_sub]

/-! ## Hundredths -/

/-- **A number of hundredths is read back as it was written.** -/
theorem parse?_pointed (h : Nat) : Spelled.parse? (pointed h) = some ⟨false, h, -2⟩ := by
  have htens : h % 100 / 10 < 10 := by omega
  have hones : h % 10 < 10 := by omega
  have hplaces : (Text.ofNat (h % 100 / 10) ++ Text.ofNat (h % 10)).length = 2 := by
    rw [ofNat_of_lt_ten htens, ofNat_of_lt_ten hones]
    rfl
  have hvalue : digitsValue (Text.ofNat (h / 100) ++
      (Text.ofNat (h % 100 / 10) ++ Text.ofNat (h % 10))) = h := by
    rw [← List.append_assoc, digitsValue_concat _ hones, digitsValue_concat _ htens,
      digitsValue_ofNat]
    omega
  have hfront : Text.ofNat (h / 100) ≠ [] := Nat.toDigits_ne_nil
  have hdigits : ∀ c ∈ Text.ofNat (h % 100 / 10) ++ Text.ofNat (h % 10), c.isDigit = true :=
    List.forall_mem_append.mpr ⟨fun c => isDigit_of_mem_ofNat, fun c => isDigit_of_mem_ofNat⟩
  unfold pointed
  rw [parse?_digits hfront (fun c => isDigit_of_mem_ofNat) hdigits, hvalue, hplaces]
  rfl

theorem value_pointed (h : Nat) : (⟨false, h, -2⟩ : Spelled).value = (h : Rat) / 100 := by
  have hplaces : (10 : Rat) ^ (-2 : Int) = 1 / 100 := by norm_num
  show (1 : Rat) * h * (10 : Rat) ^ (-2 : Int) = h / 100
  rw [hplaces]
  ring

end AmdBundle.Number
