import AmdBundle.Text.Basic

/-!
# UTF-8

Files hold bytes; a text is read from them only where they are valid UTF-8.

* `encode`, `decode` : between texts and bytes, with `decode_encode`;
* `byteLength` : the number of bytes of a text, with `byteLength_append`;
* `takeBytes` : the characters that fit into a number of bytes.
-/

set_option autoImplicit false

namespace AmdBundle

abbrev Bytes := List UInt8

namespace Text

/-- The UTF-8 bytes of a text. -/
def encode (text : Text) : Bytes :=
  (String.ofList text).toUTF8.data.toList

/-- The text of which `bytes` is the UTF-8 form, if there is one. -/
def decode (bytes : Bytes) : Option Text :=
  (String.fromUTF8? ⟨bytes.toArray⟩).map String.toList

/-- The number of bytes of the UTF-8 form of a text. -/
def byteLength : Text → Nat
  | [] => 0
  | c :: rest => c.utf8Size + byteLength rest

/-- The longest beginning of a text that fits into so many bytes. -/
def takeBytes (limit : Nat) : Text → Text
  | [] => []
  | c :: rest => if c.utf8Size ≤ limit then c :: takeBytes (limit - c.utf8Size) rest else []

theorem byteLength_append (a b : Text) : byteLength (a ++ b) = byteLength a + byteLength b := by
  induction a with
  | nil => rw [List.nil_append, byteLength, Nat.zero_add]
  | cons c a ih => rw [List.cons_append, byteLength, byteLength, ih, Nat.add_assoc]

theorem decode_encode (text : Text) : decode (encode text) = some text := by
  have h : String.fromUTF8? (String.ofList text).toUTF8 = some (String.ofList text) := by
    exact dif_pos (String.ofList text).isValidUTF8
  have same : (⟨(encode text).toArray⟩ : ByteArray) = (String.ofList text).toUTF8 := by
    simp [encode]
  rw [decode, same, h]
  simp

end Text

end AmdBundle
