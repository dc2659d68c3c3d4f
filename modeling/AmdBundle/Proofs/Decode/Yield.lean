import AmdBundle.Proofs.Decode.Steps

/-!
# What decoders yield

* `Json.inWord_of_readNumber` : a whole number in a text has at most 64 bits;
* `Decoder.Yields` : whatever a decoder reads has a property;
* `yields_map`, `yields_count` : of a mapped decoder, of counts;
* `yields_record` : of a record, from an invariant of the changes that its fields make.
-/

set_option autoImplicit false

namespace AmdBundle

/-! ## Numbers -/

namespace Json

/-- A whole number is at most the greatest one of 64 bits. -/
def Number.InWord : Json.Number → Prop
  | .whole value => value ≤ (wordLimit : Int)
  | .binary _ => True

variable {positive : Bool} {significand lost : Nat} {exponent : Int} {text rest : Text} {x : Json.Number}

theorem collect_le {n : Nat} (h : n ≤ wordLimit) (digits : Text) : (collect n digits).1 ≤ wordLimit := by
  induction digits generalizing n with
  | nil => exact h
  | cons c digits ih =>
    rw [collect]
    split
    · exact h
    · next hle => exact ih (Nat.le_of_not_lt hle)

theorem inWord_of_scaledNumber (h : scaledNumber positive significand exponent text = .ok (x, rest)) :
    x.InWord := by
  unfold scaledNumber at h
  split at h
  · obtain ⟨rfl, -⟩ := Prod.mk.inj (Except.ok.inj h)
    trivial
  · cases h

theorem inWord_of_readExponent (h : readExponent positive significand exponent text = .ok (x, rest)) :
    x.InWord := by
  unfold readExponent at h
  dsimp only at h
  split at h
  · cases h
  split at h
  · cases h
  split at h
  · exact inWord_of_scaledNumber h
  split at h
  · cases h
  · obtain ⟨rfl, -⟩ := Prod.mk.inj (Except.ok.inj h)
    trivial

theorem inWord_of_readTail (h : readTail positive significand exponent text = .ok (x, rest)) :
    x.InWord := by
  unfold readTail at h
  split at h
  · exact inWord_of_readExponent h
  · exact inWord_of_readExponent h
  · exact inWord_of_scaledNumber h

theorem inWord_of_readFraction (h : readFraction positive significand exponent text = .ok (x, rest)) :
    x.InWord := by
  unfold readFraction at h
  dsimp only at h
  split at h
  · cases h
  · exact inWord_of_readTail h

theorem inWord_of_wholeNumber (hle : significand ≤ wordLimit)
    (h : wholeNumber positive significand text = .ok (x, rest)) : x.InWord := by
  unfold wholeNumber at h
  split at h
  · obtain ⟨rfl, -⟩ := Prod.mk.inj (Except.ok.inj h)
    exact Int.ofNat_le.mpr hle
  split at h
  · exact inWord_of_scaledNumber h
  · obtain ⟨rfl, -⟩ := Prod.mk.inj (Except.ok.inj h)
    show -(significand : Int) ≤ wordLimit
    omega

theorem inWord_of_readAfterWhole (hle : significand ≤ wordLimit)
    (h : readAfterWhole positive significand lost text = .ok (x, rest)) : x.InWord := by
  unfold readAfterWhole at h
  split at h
  · exact inWord_of_readFraction h
  · exact inWord_of_readExponent h
  · exact inWord_of_readExponent h
  split at h
  · exact inWord_of_wholeNumber hle h
  · exact inWord_of_scaledNumber h

/-- **Whole numbers in a text have at most 64 bits**; greater ones are not read as whole. -/
theorem inWord_of_readNumber (h : readNumber positive text = .ok (x, rest)) : x.InWord := by
  have hzero : 0 ≤ wordLimit := Nat.zero_le _
  unfold readNumber at h
  split at h
  · cases h
  · split at h
    · split at h
      · cases h
      · exact inWord_of_readAfterWhole hzero h
    · exact inWord_of_readAfterWhole hzero h
  · split at h
    · exact inWord_of_readAfterWhole (collect_le hzero _) h
    · cases h

end Json

/-! ## Decoders -/

namespace Decoder

variable {σ α β : Type}

/-- Whatever the decoder reads has the property. -/
structure Yields (d : Decoder α) (P : α → Prop) : Prop where
  of_read {depth : Nat} {text rest : Text} {a : α} (h : d.read depth text = .ok (a, rest)) : P a

theorem Yields.of_parse {d : Decoder α} {P : α → Prop} (h : d.Yields P) {text : Text} {a : α}
    (hparse : d.parse text = .ok a) : P a := by
  obtain ⟨rest, hread, -⟩ := parse_eq_ok hparse
  exact h.of_read hread

theorem yields_any (d : Decoder α) : d.Yields fun _ => True :=
  ⟨fun _ => trivial⟩

theorem yields_map {d : Decoder α} {P : α → Prop} {Q : β → Prop} {f : α → β} (h : d.Yields P)
    (hPQ : ∀ a, P a → Q (f a)) : (d.map f).Yields Q := by
  refine ⟨fun hread => ?_⟩
  obtain ⟨a, hfound, rfl⟩ := map_eq_ok hread
  exact hPQ a (h.of_read hfound)

theorem yields_count : count.Yields (· ≤ Json.wordLimit) := by
  refine ⟨fun {depth text rest n} h => ?_⟩
  obtain ⟨c, front, x, -, hcount, hnumber⟩ := readCount_eq_ok h
  have hword : x.InWord := by
    rcases hnumber with ⟨-, hnumber⟩ | ⟨-, hnumber⟩ <;> exact Json.inWord_of_readNumber hnumber
  cases x with
  | binary value => cases hcount
  | whole value =>
    rw [countOf] at hcount
    split at hcount
    · cases hcount
    · next hpositive =>
      obtain rfl := Except.ok.inj hcount
      have hle : value ≤ (Json.wordLimit : Int) := hword
      show value.natAbs ≤ Json.wordLimit
      omega

/-- A field whose value keeps an invariant of the record. -/
theorem yields_field {name : String} {d : Decoder β} {set : β → σ → σ} {P : β → Prop} {Inv : σ → Prop}
    (h : d.Yields P) (hset : ∀ b s, P b → Inv s → Inv (set b s)) :
    (Field.of name d set).fill.Yields fun change => ∀ s, Inv s → Inv (change s) :=
  yields_map h fun b hb s hs => hset b s hb hs

theorem yields_other {name : String} {d : Decoder β} {set : β → σ → σ} {Inv : σ → Prop}
    (hset : ∀ b s, Inv s → Inv (set b s)) :
    (Field.of name d set).fill.Yields fun change => ∀ s, Inv s → Inv (change s) :=
  yields_field (yields_any d) fun b s _ hs => hset b s hs

section
variable {shape : Shape σ α} {Inv : σ → Prop} {depth : Nat} {s s' : σ} {text rest : Text}
  (hfields : ∀ field ∈ shape.fields, field.fill.Yields fun change => ∀ s, Inv s → Inv (change s))
include hfields

theorem inv_of_readMembers {fuel : Nat} {first : Bool} {seen : List String} (hs : Inv s)
    (h : readMembers shape depth fuel first seen s text = .ok (s', rest)) : Inv s' := by
  induction fuel generalizing first seen s text with
  | zero => cases h
  | succ fuel ih =>
    obtain ⟨next, hnext, -⟩ := Outcome.bind_eq_ok_iff.mp h
    cases next with
    | done last =>
      obtain ⟨rfl, -⟩ := readMembers_done hnext h
      exact hs
    | more start =>
      obtain ⟨key, -, front, behind, seen', s1, -, -, hvalue, hmore⟩ := readMembers_eq_ok hnext h
      have hs1 : Inv s1 := by
        rcases hvalue with ⟨-, -, rfl⟩ | ⟨field, hfield, change, hfill, rfl⟩
        · exact hs
        · exact (hfields field (List.mem_of_find?_eq_some hfield)).of_read hfill s hs
      exact ih hs1 hmore

theorem inv_of_readItems {fields : List (Field σ)} (hsub : fields ⊆ shape.fields) {count : Nat}
    (hs : Inv s) (h : readItems shape depth count fields s text = .ok (s', rest)) : Inv s' := by
  induction fields generalizing count s text with
  | nil =>
    obtain ⟨rfl, -⟩ := Prod.mk.inj (Except.ok.inj h)
    exact hs
  | cons field more ih =>
    obtain ⟨hfield, hmore⟩ := List.cons_subset.mp hsub
    obtain ⟨-, rfl⟩ | ⟨front, behind, change, -, hfill, hitems⟩ := readItems_eq_ok h
    · exact hs
    · exact ih hmore ((hfields field hfield).of_read hfill s hs) hitems

/-- A record has what follows from an invariant of the changes that its fields make. -/
theorem yields_record {P : α → Prop} (hstart : Inv shape.start)
    (hfinish : ∀ s a, Inv s → shape.finish s = .ok a → P a) : (record shape).Yields P := by
  refine ⟨fun {depth text rest a} h => ?_⟩
  obtain ⟨front, less, -, hobject⟩ | ⟨front, less, -, hlist⟩ := record_eq_ok h
  · obtain ⟨s, behind, hmembers, hfinished, -⟩ := readObject_eq_ok hobject
    exact hfinish s a (inv_of_readMembers hfields hstart hmembers) hfinished
  · obtain ⟨s, behind, hitems, hfinished, -⟩ := readFields_eq_ok hlist
    exact hfinish s a (inv_of_readItems hfields (List.Subset.refl _) hstart hitems) hfinished

end

end Decoder

end AmdBundle
