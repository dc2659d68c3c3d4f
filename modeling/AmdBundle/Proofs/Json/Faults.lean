import AmdBundle.Json.Reader
import AmdBundle.Proofs.Outcome

/-!
# Faults of JSON texts

* `Cause.IsLexical` : the cause is the spelling of a text, not what a value should have been;
* `FailsLexically` : a reading that has no other faults; one lemma for each reader;
* `isLexical_of_parse` : reading a text as JSON has none.
-/

set_option autoImplicit false

namespace AmdBundle.Json

/-- The cause is the spelling of a text. -/
def Cause.IsLexical : Cause → Prop
  | .mismatch _ => False
  | _ => True

/-- If the reading fails, the spelling of the text is why. -/
def FailsLexically {α : Type} (x : Except Fault α) : Prop :=
  ∀ fault, x = .error fault → fault.cause.IsLexical

/-! ## Readings put together -/

section
variable {α β : Type}

@[simp] theorem failsLexically_ok (a : α) : FailsLexically (.ok a : Except Fault α) :=
  nofun

@[simp] theorem failsLexically_error {fault : Fault} :
    FailsLexically (.error fault : Except Fault α) ↔ fault.cause.IsLexical := by
  constructor
  · exact fun h => h fault rfl
  · rintro h _ ⟨⟩
    exact h

theorem FailsLexically.bind {x : Except Fault α} {f : α → Except Fault β} (hx : FailsLexically x)
    (hf : ∀ a, FailsLexically (f a)) : FailsLexically (x >>= f) := by
  intro fault h
  rcases Outcome.bind_eq_error_iff.mp h with h | ⟨a, -, h⟩
  · exact hx fault h
  · exact hf a fault h

theorem FailsLexically.map {x : Except Fault α} (hx : FailsLexically x) (f : α → β) :
    FailsLexically (x.map f) := by
  cases x with
  | ok a => exact failsLexically_ok (f a)
  | error fault => exact failsLexically_error.mpr (failsLexically_error.mp hx)

end

@[simp] theorem isLexical_looking (rest : Text) (cause : Cause) :
    (Fault.looking rest cause).cause = cause := rfl

@[simp] theorem isLexical_after (rest : Text) (cause : Cause) :
    (Fault.after rest cause).cause = cause := rfl

/-! ## Words and strings -/

theorem failsLexically_word (letters text : Text) : FailsLexically (word letters text) := by
  fun_induction word letters text <;> simp_all [Cause.IsLexical]

theorem isLexical_badQuad (text : Text) : (badQuad text).cause.IsLexical := by
  unfold badQuad
  split <;> simp [Cause.IsLexical]

theorem failsLexically_readQuad (text : Text) : FailsLexically (readQuad text) := by
  unfold readQuad
  repeat' split
  all_goals simp [isLexical_badQuad]

theorem failsLexically_readTrailing (leading : Nat) (text : Text) :
    FailsLexically (readTrailing leading text) := by
  unfold readTrailing
  repeat' split
  all_goals try simp [Cause.IsLexical]
  refine (failsLexically_readQuad _).bind fun found => ?_
  split <;> simp [Cause.IsLexical]

theorem failsLexically_readEscape (text : Text) : FailsLexically (readEscape text) := by
  unfold readEscape
  repeat' split
  all_goals try simp [Cause.IsLexical]
  refine (failsLexically_readQuad _).bind fun found => ?_
  repeat' split
  all_goals simp [Cause.IsLexical, failsLexically_readTrailing]

theorem failsLexically_stringBody (fuel : Nat) (text : Text) :
    FailsLexically (stringBody fuel text) := by
  induction fuel generalizing text with
  | zero => simp [stringBody, Cause.IsLexical]
  | succ fuel ih =>
    cases text with
    | nil => simp [stringBody, Cause.IsLexical]
    | cons c rest =>
      rw [stringBody]
      repeat' split
      · exact failsLexically_ok _
      · exact (failsLexically_readEscape _).bind fun found => (ih _).bind fun more =>
          failsLexically_ok _
      · simp [Cause.IsLexical]
      · exact (ih _).bind fun more => failsLexically_ok _

theorem failsLexically_readString (text : Text) : FailsLexically (readString text) :=
  failsLexically_stringBody _ text

/-! ## Numbers -/

section
variable (positive : Bool) (significand : Nat)

theorem failsLexically_scaledNumber (exponent : Int) (rest : Text) :
    FailsLexically (scaledNumber positive significand exponent rest) := by
  unfold scaledNumber
  split <;> simp [Cause.IsLexical]

theorem failsLexically_readExponent (exponent : Int) (text : Text) :
    FailsLexically (readExponent positive significand exponent text) := by
  unfold readExponent
  dsimp only
  repeat' split
  all_goals simp [Cause.IsLexical, failsLexically_scaledNumber]

theorem failsLexically_readTail (exponent : Int) (text : Text) :
    FailsLexically (readTail positive significand exponent text) := by
  unfold readTail
  split <;> simp only [failsLexically_readExponent, failsLexically_scaledNumber]

theorem failsLexically_readFraction (exponent : Int) (text : Text) :
    FailsLexically (readFraction positive significand exponent text) := by
  unfold readFraction
  dsimp only
  split
  · split <;> simp [Cause.IsLexical]
  · exact failsLexically_readTail _ _ _ _

theorem failsLexically_wholeNumber (rest : Text) :
    FailsLexically (wholeNumber positive significand rest) := by
  unfold wholeNumber
  repeat' split
  all_goals simp [failsLexically_scaledNumber]

theorem failsLexically_readAfterWhole (lost : Nat) (text : Text) :
    FailsLexically (readAfterWhole positive significand lost text) := by
  unfold readAfterWhole
  repeat' split
  all_goals simp only [failsLexically_readFraction, failsLexically_readExponent,
    failsLexically_wholeNumber, failsLexically_scaledNumber]

theorem failsLexically_readNumber (text : Text) : FailsLexically (readNumber positive text) := by
  unfold readNumber
  repeat' split
  all_goals simp [Cause.IsLexical, failsLexically_readAfterWhole]

end

/-! ## Brackets -/

theorem failsLexically_nextItem (first : Bool) (text : Text) : FailsLexically (nextItem first text) := by
  unfold nextItem
  repeat' split
  all_goals simp [Cause.IsLexical]

theorem failsLexically_closeList (text : Text) : FailsLexically (closeList text) := by
  unfold closeList
  repeat' split
  all_goals simp [Cause.IsLexical]

theorem failsLexically_nextKey (first : Bool) (text : Text) : FailsLexically (nextKey first text) := by
  unfold nextKey
  repeat' split
  all_goals simp [Cause.IsLexical]

theorem failsLexically_colon (text : Text) : FailsLexically (colon text) := by
  unfold colon
  repeat' split
  all_goals simp [Cause.IsLexical]

theorem failsLexically_closeObject (text : Text) : FailsLexically (closeObject text) := by
  unfold closeObject
  repeat' split
  all_goals simp [Cause.IsLexical]

section
variable {α : Type} {read : Reader α} (hread : ∀ text, FailsLexically (read text))
include hread

theorem failsLexically_itemsFrom (fuel : Nat) (first : Bool) (text : Text) :
    FailsLexically (itemsFrom read fuel first text) := by
  induction fuel generalizing first text with
  | zero => simp [itemsFrom, Cause.IsLexical]
  | succ fuel ih =>
    rw [itemsFrom]
    refine (failsLexically_nextItem first text).bind fun next => ?_
    cases next with
    | done rest => exact failsLexically_ok _
    | more rest =>
      exact (hread rest).bind fun item => (ih false _).bind fun more => failsLexically_ok _

theorem failsLexically_items (text : Text) : FailsLexically (items read text) :=
  (failsLexically_itemsFrom hread _ true text).bind fun _ =>
    (failsLexically_closeList _).bind fun _ => failsLexically_ok _

theorem failsLexically_membersFrom (fuel : Nat) (first : Bool) (text : Text) :
    FailsLexically (membersFrom read fuel first text) := by
  induction fuel generalizing first text with
  | zero => simp [membersFrom, Cause.IsLexical]
  | succ fuel ih =>
    rw [membersFrom]
    refine (failsLexically_nextKey first text).bind fun next => ?_
    cases next with
    | done rest => exact failsLexically_ok _
    | more rest =>
      exact (failsLexically_readString _).bind fun key => (failsLexically_colon _).bind fun rest =>
        (hread rest).bind fun value => (ih false _).bind fun more => failsLexically_ok _

theorem failsLexically_members (text : Text) : FailsLexically (members read text) :=
  (failsLexically_membersFrom hread _ true text).bind fun _ =>
    (failsLexically_closeObject _).bind fun _ => failsLexically_ok _

end

/-! ## Values -/

theorem failsLexically_scalar? {c : Char} {rest : Text} {found : Except Fault (Json × Text)}
    (h : scalar? c rest = some found) : FailsLexically found := by
  unfold scalar? at h
  repeat' split at h
  all_goals first | cases h; apply FailsLexically.map | cases h
  · exact failsLexically_word _ _
  · exact failsLexically_word _ _
  · exact failsLexically_word _ _
  · exact failsLexically_readString _
  · exact failsLexically_readNumber _ _
  · exact failsLexically_readNumber _ _

theorem failsLexically_deeper {α β : Type} {inner : Option α} {text : Text}
    {read : α → Except Fault β} (hread : ∀ a, inner = some a → FailsLexically (read a)) :
    FailsLexically (deeper inner text read) := by
  cases inner with
  | none => simp [deeper, Cause.IsLexical]
  | some a => exact hread a rfl

theorem failsLexically_valueWith {inner : Option (Reader Json)}
    (hinner : ∀ read, inner = some read → ∀ text, FailsLexically (read text)) (text : Text) :
    FailsLexically (valueWith inner text) := by
  unfold valueWith
  split
  · simp [Cause.IsLexical]
  · split
    · next hscalar => exact failsLexically_scalar? hscalar
    · repeat' split
      · exact failsLexically_deeper fun read hread =>
          (failsLexically_items (hinner read hread) _).map _
      · exact failsLexically_deeper fun read hread =>
          (failsLexically_members (hinner read hread) _).map _
      · simp [Cause.IsLexical]

theorem failsLexically_value (depth : Nat) (text : Text) : FailsLexically (value depth text) := by
  induction depth generalizing text with
  | zero =>
    refine failsLexically_valueWith ?_ text
    rintro _ ⟨⟩
  | succ depth ih =>
    refine failsLexically_valueWith ?_ text
    rintro _ ⟨⟩
    exact ih

/-- **A text that is no JSON is so for its spelling.** -/
theorem isLexical_of_parse {text : Text} {fault : Fault} (h : parse text = .error fault) :
    fault.cause.IsLexical := by
  refine FailsLexically.bind (failsLexically_value depthLimit text) (fun found => ?_) fault h
  obtain ⟨v, rest⟩ := found
  dsimp only
  split <;> simp [Cause.IsLexical]

end AmdBundle.Json
