import AmdBundle.Base64
import AmdBundle.Proofs.Text.Indent
import AmdBundle.Proofs.Text.Quoted

/-!
# Line separators

U+2028 and U+2029 end a line of a script, and older engines let no string literal go on behind one.

* `HasNoSeparator` : neither of the two is in a text;
* `hasNoSeparator_quote_iff`, `hasNoSeparator_scriptQuote` : a JSON string keeps them, a script string
  does not;
* `hasNoSeparator_ofNat`, `hasNoSeparator_base64` : numbers and base64 have none.
-/

set_option autoImplicit false

namespace AmdBundle.Text

/-- The character ends a line, but it is no line feed. -/
def IsSeparator (c : Char) : Prop :=
  c = '\u2028' ∨ c = '\u2029'

instance (c : Char) : Decidable (IsSeparator c) :=
  inferInstanceAs (Decidable (_ ∨ _))

def HasNoSeparator (text : Text) : Prop :=
  ∀ c ∈ text, ¬ IsSeparator c

instance (text : Text) : Decidable (HasNoSeparator text) :=
  List.decidableBAll (¬ IsSeparator ·) text

/-! ## Joined texts -/

@[simp] theorem hasNoSeparator_nil : HasNoSeparator [] :=
  List.forall_mem_nil _

@[simp] theorem hasNoSeparator_cons_iff {c : Char} {text : Text} :
    HasNoSeparator (c :: text) ↔ ¬ IsSeparator c ∧ HasNoSeparator text :=
  List.forall_mem_cons

@[simp] theorem hasNoSeparator_append_iff {a b : Text} :
    HasNoSeparator (a ++ b) ↔ HasNoSeparator a ∧ HasNoSeparator b :=
  List.forall_mem_append

theorem hasNoSeparator_flatMap_iff {α : Type} {f : α → Text} {xs : List α} :
    HasNoSeparator (xs.flatMap f) ↔ ∀ x ∈ xs, HasNoSeparator (f x) := by
  simp only [HasNoSeparator, List.mem_flatMap]
  exact ⟨fun h x hx c hc => h c ⟨x, hx, hc⟩, fun h c ⟨x, hx, hc⟩ => h x hx c hc⟩

theorem HasNoSeparator.sublist {a b : Text} (h : HasNoSeparator b) (hsub : a.Sublist b) :
    HasNoSeparator a :=
  fun c hc => h c (hsub.subset hc)

theorem hasNoSeparator_intercalate_iff {sep : Text} (hsep : HasNoSeparator sep) {parts : List Text} :
    HasNoSeparator (sep.intercalate parts) ↔ ∀ part ∈ parts, HasNoSeparator part :=
  ⟨fun h _ hpart => h.sublist (Lists.infix_intercalate hpart).sublist,
    fun h => Lists.forall_mem_intercalate hsep h⟩

/-! ## Margins -/

theorem hasNoSeparator_spaces (k : Nat) : HasNoSeparator (spaces k) :=
  fun c hc => (List.mem_replicate.mp hc).2 ▸ by decide

/-- Where a character is swapped for a text without separators, the others decide. -/
theorem hasNoSeparator_replaceChar_iff {c : Char} {by' text : Text} (hc : ¬ IsSeparator c)
    (hby : HasNoSeparator by') : HasNoSeparator (replaceChar c by' text) ↔ HasNoSeparator text := by
  rw [replaceChar, hasNoSeparator_flatMap_iff]
  refine forall₂_congr fun d _ => ?_
  by_cases hd : d = c
  · subst hd
    simp [hby, hc]
  · simp [hd]

theorem hasNoSeparator_indent_iff {k : Nat} {text : Text} :
    HasNoSeparator (indent (spaces k) text) ↔ HasNoSeparator text := by
  have hmargin : HasNoSeparator ('\n' :: spaces k) :=
    hasNoSeparator_cons_iff.mpr ⟨by decide, hasNoSeparator_spaces k⟩
  rw [indent_eq, hasNoSeparator_append_iff, hasNoSeparator_replaceChar_iff (by decide) hmargin]
  exact and_iff_right (hasNoSeparator_spaces k)

/-! ## Numbers and bytes -/

theorem hasNoSeparator_ofNat (n : Nat) : HasNoSeparator (ofNat n) := by
  rintro c hc (rfl | rfl)
  all_goals exact absurd (Nat.isDigit_of_mem_toDigits (by decide) (by decide) hc) (by decide)

theorem not_isSeparator_symbol (n : Nat) : ¬ IsSeparator (Base64.symbol n) := by
  by_cases hn : n < 64
  · exact (by decide : ∀ n < 64, ¬ IsSeparator (Base64.symbol n)) n hn
  · have hslash : Base64.symbol n = '/' := by
      rw [Base64.symbol, if_neg (by omega), if_neg (by omega), if_neg (by omega), if_neg (by omega)]
    rw [hslash]
    decide

theorem hasNoSeparator_base64 (bytes : Bytes) : HasNoSeparator (Base64.encode bytes) := by
  have hfilling : ¬ IsSeparator '=' := by decide
  fun_induction Base64.encode bytes with
  | case1 => exact hasNoSeparator_nil
  | case2 a => simp [hfilling, not_isSeparator_symbol]
  | case3 a b => simp [hfilling, not_isSeparator_symbol]
  | case4 a b c rest ih => simp [ih, not_isSeparator_symbol]

/-! ## Quoted text -/

theorem not_isSeparator_hexDigit : ∀ n < 16, ¬ IsSeparator (hexDigit n) := by decide

theorem hasNoSeparator_controlEscape {c : Char} (hc : c.toNat < 32) :
    HasNoSeparator (controlEscape c) := by
  have hhigh := not_isSeparator_hexDigit (c.toNat / 16) (by omega)
  have hlow := not_isSeparator_hexDigit (c.toNat % 16) (by omega)
  simp only [controlEscape, hasNoSeparator_cons_iff]
  exact ⟨by decide, by decide, by decide, by decide, hhigh, hlow, hasNoSeparator_nil⟩

theorem hasNoSeparator_jsonEscape_iff {c : Char} :
    HasNoSeparator (jsonEscape c) ↔ ¬ IsSeparator c := by
  by_cases hc : IsSeparator c
  · refine iff_of_false ?_ (not_not_intro hc)
    rcases hc with rfl | rfl <;> decide
  · refine iff_of_true ?_ hc
    unfold jsonEscape
    repeat' split
    all_goals first | exact hasNoSeparator_controlEscape ‹_› | (subst_vars; decide) | simpa using hc

/-- **A JSON string keeps separators.** -/
theorem hasNoSeparator_quote_iff {text : Text} : HasNoSeparator (quote text) ↔ HasNoSeparator text := by
  have hquote : ¬ IsSeparator '"' := by decide
  simp only [quote, hasNoSeparator_cons_iff, hasNoSeparator_append_iff, hasNoSeparator_flatMap_iff,
    hasNoSeparator_jsonEscape_iff, hquote, hasNoSeparator_nil, not_false_eq_true, true_and, and_true]
  rfl

theorem hasNoSeparator_scriptEscape (c : Char) : HasNoSeparator (scriptEscape c) := by
  unfold scriptEscape
  split
  · decide
  · split
    · decide
    · next h h' => exact hasNoSeparator_jsonEscape_iff.mpr (not_or.mpr ⟨h, h'⟩)

/-- **A script string has no separators.** -/
theorem hasNoSeparator_scriptQuote (text : Text) : HasNoSeparator (scriptQuote text) := by
  have hquote : ¬ IsSeparator '"' := by decide
  simp [scriptQuote, hasNoSeparator_flatMap_iff, hasNoSeparator_scriptEscape, hquote]

end AmdBundle.Text
