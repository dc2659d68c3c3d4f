import AmdBundle.Base64

/-!
# Base64 is read back

A byte is cut into parts of the numbers that stand for characters, and those parts are put together
again. No such character is the filling, so a rest of one or two bytes is told by its end.

* `value_symbol` : the number of every character of the alphabet;
* `decode_encode` : bytes are read back from their written form.
-/

set_option autoImplicit false

namespace AmdBundle.Base64

theorem value_symbol : ∀ n < 64, value (symbol n) = some n := by decide

theorem symbol_ne_filling : ∀ n < 64, symbol n ≠ '=' := by decide

/-! ## Bytes from numbers of six bits -/

theorem first_byte (a : UInt8) {m : Nat} (hm : m < 16) :
    UInt8.ofNat (a.toNat / 4 * 4 + (a.toNat % 4 * 16 + m) / 16) = a := by
  have hsum : a.toNat / 4 * 4 + (a.toNat % 4 * 16 + m) / 16 = a.toNat := by omega
  rw [hsum, UInt8.ofNat_toNat]

theorem second_byte (b : UInt8) (n : Nat) {m : Nat} (hm : m < 4) :
    UInt8.ofNat ((n * 16 + b.toNat / 16) % 16 * 16 + (b.toNat % 16 * 4 + m) / 4) = b := by
  have hb := b.toNat_lt
  have hsum : (n * 16 + b.toNat / 16) % 16 * 16 + (b.toNat % 16 * 4 + m) / 4 = b.toNat := by omega
  rw [hsum, UInt8.ofNat_toNat]

theorem third_byte (c : UInt8) (n : Nat) :
    UInt8.ofNat ((n * 4 + c.toNat / 64) % 4 * 64 + c.toNat % 64) = c := by
  have hc := c.toNat_lt
  have hsum : (n * 4 + c.toNat / 64) % 4 * 64 + c.toNat % 64 = c.toNat := by omega
  rw [hsum, UInt8.ofNat_toNat]

/-! ## Written bytes -/

section
variable {x y z w : Nat} (hx : x < 64) (hy : y < 64)
include hx hy

theorem decode_two (hclear : y % 16 = 0) :
    decode [symbol x, symbol y, '=', '='] = some [UInt8.ofNat (x * 4 + y / 16)] := by
  simp [decode, value_symbol, hx, hy, hclear]

theorem decode_three (hz : z < 64) (hclear : z % 4 = 0) :
    decode [symbol x, symbol y, symbol z, '='] =
      some [UInt8.ofNat (x * 4 + y / 16), UInt8.ofNat (y % 16 * 16 + z / 4)] := by
  have hfilling := symbol_ne_filling z hz
  rw [decode]
  · simp [value_symbol, hx, hy, hz, hclear]
  · intro h
    exact absurd h hfilling

theorem decode_four (hz : z < 64) (hw : w < 64) (rest : Text) :
    decode (symbol x :: symbol y :: symbol z :: symbol w :: rest) = (decode rest).map fun more =>
      UInt8.ofNat (x * 4 + y / 16) :: UInt8.ofNat (y % 16 * 16 + z / 4) ::
        UInt8.ofNat (z % 4 * 64 + w) :: more := by
  have hfilling := symbol_ne_filling w hw
  rw [decode]
  · cases hmore : decode rest <;> simp [value_symbol, hx, hy, hz, hw]
  · intro _ h
    exact absurd h hfilling
  · intro h
    exact absurd h hfilling

end

/-- **Bytes are read back from their written form.** -/
theorem decode_encode (bytes : Bytes) : decode (encode bytes) = some bytes := by
  induction bytes using encode.induct with
  | case1 => rfl
  | case2 a =>
    have ha := a.toNat_lt
    have hfirst := first_byte a (m := 0) (by decide)
    rw [Nat.add_zero] at hfirst
    rw [encode, decode_two (by omega) (by omega) (by omega), hfirst]
  | case3 a b =>
    have ha := a.toNat_lt
    have hb := b.toNat_lt
    have hsecond := second_byte b (a.toNat % 4) (m := 0) (by decide)
    rw [Nat.add_zero] at hsecond
    rw [encode, decode_three (by omega) (by omega) (by omega) (by omega), first_byte a (by omega),
      hsecond]
  | case4 a b c rest ih =>
    have ha := a.toNat_lt
    have hb := b.toNat_lt
    have hc := c.toNat_lt
    rw [encode, decode_four (by omega) (by omega) (by omega) (by omega), ih, Option.map_some,
      first_byte a (by omega), second_byte b _ (by omega), third_byte c]

end AmdBundle.Base64
