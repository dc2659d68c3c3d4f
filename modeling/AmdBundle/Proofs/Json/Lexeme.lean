import AmdBundle.Json.Lexeme
import AmdBundle.Json.Printer
import AmdBundle.Proofs.Lists
import AmdBundle.Proofs.Outcome
import AmdBundle.Proofs.Text.Quoted

/-!
# Printed words, strings and numbers of JSON are read back

* `word_append` : a word;
* `IsEscape`, `readString_flatMap` : a string, every character of which is read from the escape it is
  written as;
* `readNumber_ofNat` : the digits of a number of 64 bits, if what stands behind them does not go on
  the number (`EndsNumber`).
-/

set_option autoImplicit false

namespace AmdBundle.Json

theorem word_append (w rest : Text) : word w (w ++ rest) = .ok rest := by
  induction w with
  | nil => rfl
  | cons c w ih => simpa [word] using ih

/-! ## Strings -/

theorem hexValue_hexDigit : ∀ n < 16, hexValue (Text.hexDigit n) = some n := by decide

theorem hexQuad_control {n : Nat} (h : n < 32) :
    hexQuad '0' '0' (Text.hexDigit (n / 16)) (Text.hexDigit (n % 16)) = some n := by
  have hzero : hexValue '0' = some 0 := by decide
  have hsum : n / 16 * 16 + n % 16 = n := by omega
  simp [hexQuad, hzero, hexValue_hexDigit (n / 16) (by omega), hexValue_hexDigit (n % 16) (by omega),
    hsum]

theorem readEscape_control {c : Char} (hc : c.toNat < 32) (rest : Text) :
    readEscape (['u', '0', '0', Text.hexDigit (c.toNat / 16), Text.hexDigit (c.toNat % 16)] ++ rest) =
      .ok (c, rest) := by
  have hshort : shortEscape 'u' = none := by decide
  have htrailing : isTrailing c.toNat = false := by simp [isTrailing]; omega
  have hleading : isLeading c.toNat = false := by simp [isLeading]; omega
  simp [readEscape, hshort, readQuad, hexQuad_control hc, htrailing, hleading, Char.ofNat_toNat]

theorem stringBody_escape (escape : Text) {rest more behind : Text} {c : Char} {fuel : Nat}
    (hescape : readEscape (escape ++ rest) = .ok (c, rest))
    (hmore : stringBody fuel rest = .ok (more, behind)) :
    stringBody (fuel + 1) ('\\' :: escape ++ rest) = .ok (c :: more, behind) := by
  simp [stringBody, hescape, hmore]

/-- One character of a string. -/
theorem stringBody_jsonEscape {c : Char} {rest more behind : Text} {fuel : Nat}
    (h : stringBody fuel rest = .ok (more, behind)) :
    stringBody (fuel + 1) (Text.jsonEscape c ++ rest) = .ok (c :: more, behind) := by
  unfold Text.jsonEscape
  split
  · next hc => subst hc; exact stringBody_escape ['"'] rfl h
  next hquote =>
  split
  · next hc => subst hc; exact stringBody_escape ['\\'] rfl h
  next hbackslash =>
  split
  · next hc => subst hc; exact stringBody_escape ['n'] rfl h
  split
  · next hc => subst hc; exact stringBody_escape ['r'] rfl h
  split
  · next hc => subst hc; exact stringBody_escape ['t'] rfl h
  split
  · next hc =>
    obtain rfl : Char.ofNat 8 = c := by rw [← hc, Char.ofNat_toNat]
    exact stringBody_escape ['b'] rfl h
  split
  · next hc =>
    obtain rfl : Char.ofNat 12 = c := by rw [← hc, Char.ofNat_toNat]
    exact stringBody_escape ['f'] rfl h
  split
  · next hc => exact stringBody_escape _ (readEscape_control hc rest) h
  · next hcontrol => simp [stringBody, hquote, hbackslash, hcontrol, h]

/-- One character of a string for a script, which has two escapes more. -/
theorem stringBody_scriptEscape {c : Char} {rest more behind : Text} {fuel : Nat}
    (h : stringBody fuel rest = .ok (more, behind)) :
    stringBody (fuel + 1) (Text.scriptEscape c ++ rest) = .ok (c :: more, behind) := by
  unfold Text.scriptEscape
  split
  · next hc => subst hc; exact stringBody_escape ['u', '2', '0', '2', '8'] rfl h
  split
  · next hc => subst hc; exact stringBody_escape ['u', '2', '0', '2', '9'] rfl h
  · exact stringBody_jsonEscape h

/-- A way to write the characters of a string, each of which is read back. -/
structure IsEscape (escape : Char → Text) : Prop where
  ne_nil (c : Char) : escape c ≠ []
  reads {c : Char} {rest more behind : Text} {fuel : Nat}
    (h : stringBody fuel rest = .ok (more, behind)) :
    stringBody (fuel + 1) (escape c ++ rest) = .ok (c :: more, behind)

theorem isEscape_json : IsEscape Text.jsonEscape := ⟨Text.jsonEscape_ne_nil, stringBody_jsonEscape⟩

theorem isEscape_script : IsEscape Text.scriptEscape :=
  ⟨Text.scriptEscape_ne_nil, stringBody_scriptEscape⟩

section
variable {escape : Char → Text} (hescape : IsEscape escape)
include hescape

theorem stringBody_flatMap {text : Text} {fuel : Nat} (hfuel : text.length < fuel) (rest : Text) :
    stringBody fuel (text.flatMap escape ++ '"' :: rest) = .ok (text, rest) := by
  induction text generalizing fuel with
  | nil =>
    obtain ⟨fuel, rfl⟩ := Nat.exists_eq_succ_of_ne_zero (Nat.ne_of_gt hfuel)
    simp [stringBody]
  | cons c text ih =>
    obtain ⟨fuel, rfl⟩ := Nat.exists_eq_succ_of_ne_zero (Nat.ne_of_gt (Nat.zero_lt_of_lt hfuel))
    rw [List.flatMap_cons, List.append_assoc]
    exact hescape.reads (ih (Nat.lt_of_succ_lt_succ hfuel))

/-- A string is read back, from the character behind its opening quote on. -/
theorem readString_flatMap (text rest : Text) :
    readString (text.flatMap escape ++ '"' :: rest) = .ok (text, rest) := by
  have hlength := Lists.length_le_length_flatMap hescape.ne_nil text
  refine stringBody_flatMap hescape ?_ rest
  rw [List.length_append]
  omega

end

/-- A quoted string is read back, from the character behind its opening quote on. -/
theorem readString_quote (text rest : Text) :
    readString (text.flatMap Text.jsonEscape ++ '"' :: rest) = .ok (text, rest) :=
  readString_flatMap isEscape_json text rest

/-! ## Numbers -/

/-- The text does not go on a number. -/
def EndsNumber (rest : Text) : Prop :=
  ∀ c ∈ rest.head?, c.isDigit = false ∧ c ≠ '.' ∧ c ≠ 'e' ∧ c ≠ 'E'

theorem endsNumber_nil : EndsNumber [] := by
  intro c hc
  cases hc

theorem endsNumber_cons {c : Char} {rest : Text}
    (hc : c.isDigit = false ∧ c ≠ '.' ∧ c ≠ 'e' ∧ c ≠ 'E') : EndsNumber (c :: rest) := by
  rintro d ⟨⟩
  exact hc

theorem le_ofDigitChars (n : Nat) (digits : Text) : n ≤ Nat.ofDigitChars 10 digits n := by
  induction digits generalizing n with
  | nil => exact Nat.le_refl n
  | cons c digits ih =>
    rw [Nat.ofDigitChars_cons]
    exact Nat.le_trans (by omega) (ih _)

/-- No digit is lost of a number that fits. -/
theorem collect_eq {n : Nat} {digits : Text} (h : Nat.ofDigitChars 10 digits n ≤ wordLimit) :
    collect n digits = (Nat.ofDigitChars 10 digits n, []) := by
  induction digits generalizing n with
  | nil => rfl
  | cons c digits ih =>
    rw [Nat.ofDigitChars_cons] at h ⊢
    have hstep : n * 10 + digitValue c = 10 * n + (c.toNat - '0'.toNat) := by
      rw [Nat.mul_comm]
      rfl
    have hle := Nat.le_trans (le_ofDigitChars _ digits) h
    rw [collect, hstep, if_neg (Nat.not_lt_of_le hle), ih h]

/-- The digits of a number begin with `0` only if it is zero. -/
theorem exists_ofNat_eq_cons {n : Nat} (hn : n ≠ 0) :
    ∃ c digits, Text.ofNat n = c :: digits ∧ c ≠ '0' := by
  induction n using Nat.strongRecOn with
  | ind n ih =>
    by_cases hlt : n < 10
    · have hdigit : ∀ d < 10, d ≠ 0 → d.digitChar ≠ '0' := by decide
      exact ⟨n.digitChar, [], Nat.toDigits_of_lt_base hlt, hdigit n hlt hn⟩
    · obtain ⟨c, digits, hdigits, hc⟩ := ih (n / 10) (by omega) (by omega)
      refine ⟨c, digits ++ [(n % 10).digitChar], ?_, hc⟩
      rw [Text.ofNat] at hdigits ⊢
      rw [Nat.toDigits_of_base_le (by decide) (Nat.le_of_not_lt hlt), hdigits, List.cons_append]

theorem isDigit_of_mem_ofNat {n : Nat} {c : Char} (hc : c ∈ Text.ofNat n) : c.isDigit = true :=
  Nat.isDigit_of_mem_toDigits (by decide) (by decide) hc

theorem readAfterWhole_of_endsNumber {rest : Text} (hrest : EndsNumber rest) (positive : Bool)
    (n : Nat) : readAfterWhole positive n 0 rest = wholeNumber positive n rest := by
  unfold readAfterWhole
  split
  · exact absurd rfl (hrest '.' rfl).2.1
  · exact absurd rfl (hrest 'e' rfl).2.2.1
  · exact absurd rfl (hrest 'E' rfl).2.2.2
  · rfl

theorem takeWhile_digits {digits rest : Text} (hdigits : ∀ c ∈ digits, c.isDigit = true)
    (hrest : EndsNumber rest) :
    (digits ++ rest).takeWhile Char.isDigit = digits ∧
      (digits ++ rest).dropWhile Char.isDigit = rest := by
  rw [List.takeWhile_append_of_pos hdigits, List.dropWhile_append_of_pos hdigits]
  cases rest with
  | nil => simp
  | cons c rest => simp [(hrest c rfl).1]

/-- The digits of a number of 64 bits are read back. -/
theorem readNumber_ofNat {n : Nat} (hn : n ≤ wordLimit) {rest : Text} (hrest : EndsNumber rest)
    (positive : Bool) :
    readNumber positive (Text.ofNat n ++ rest) = wholeNumber positive n rest := by
  by_cases hzero : n = 0
  · subst hzero
    rw [show Text.ofNat 0 = ['0'] from rfl, List.singleton_append, readNumber.eq_def]
    cases rest with
    | nil => exact readAfterWhole_of_endsNumber hrest positive 0
    | cons c rest =>
      simp only [(hrest c rfl).1, Bool.false_eq_true, if_false]
      exact readAfterWhole_of_endsNumber hrest positive 0
  · obtain ⟨c, digits, heq, hc⟩ := exists_ofNat_eq_cons hzero
    have hall : ∀ d ∈ c :: digits, d.isDigit = true := fun d hd => isDigit_of_mem_ofNat (heq ▸ hd)
    obtain ⟨htake, hdrop⟩ := takeWhile_digits hall hrest
    have hvalue : Nat.ofDigitChars 10 (c :: digits) 0 = n := by
      rw [← heq]
      exact Nat.ofDigitChars_toDigits (by decide) (by decide)
    have hcollect : collect 0 (c :: digits) = (n, []) := by
      rw [collect_eq (by rwa [hvalue]), hvalue]
    rw [heq, List.cons_append] at *
    unfold readNumber
    split
    · next h => cases h
    · next h => exact absurd (List.cons.inj h).1 hc
    · next d behind _ h =>
      obtain ⟨rfl, rfl⟩ := List.cons.inj h
      rw [if_pos (hall _ List.mem_cons_self)]
      simp only [htake, hdrop, hcollect]
      exact readAfterWhole_of_endsNumber hrest positive n

end AmdBundle.Json
