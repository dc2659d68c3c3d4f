import AmdBundle.Proofs.Json.Faults
import AmdBundle.Proofs.Json.Layout
import AmdBundle.Proofs.Text.Separators

/-!
# Line separators in printed JSON

* `HasText` : a string or a key of a value;
* `hasNoSeparator_prettyAt_iff` : a printed value has the separators of its texts;
* `hasNoSeparator_message` : what is said about a JSON text has none.
-/

set_option autoImplicit false

namespace AmdBundle.Json
open Text (HasNoSeparator spaces newLine hasNoSeparator_append_iff hasNoSeparator_cons_iff
  hasNoSeparator_flatMap_iff hasNoSeparator_ofNat)

/-- The text is a string or a key of the value. -/
inductive HasText : Json → Text → Prop
  | string (text : Text) : HasText (.string text) text
  | item {items : List Json} {item : Json} {text : Text} (hitem : item ∈ items)
      (h : HasText item text) : HasText (.array items) text
  | key {fields : List (Text × Json)} {field : Text × Json} (hfield : field ∈ fields) :
      HasText (.object fields) field.1
  | field {fields : List (Text × Json)} {field : Text × Json} {text : Text}
      (hfield : field ∈ fields) (h : HasText field.2 text) : HasText (.object fields) text

theorem hasText_string_iff {text text' : Text} : HasText (.string text) text' ↔ text' = text := by
  constructor
  · rintro ⟨⟩
    rfl
  · rintro rfl
    exact .string text'

theorem hasText_array_iff {items : List Json} {text : Text} :
    HasText (.array items) text ↔ ∃ item ∈ items, item.HasText text := by
  constructor
  · rintro (_ | ⟨hitem, h⟩)
    exact ⟨_, hitem, h⟩
  · rintro ⟨item, hitem, h⟩
    exact .item hitem h

theorem hasText_object_iff {fields : List (Text × Json)} {text : Text} :
    HasText (.object fields) text ↔ ∃ field ∈ fields, text = field.1 ∨ field.2.HasText text := by
  constructor
  · rintro (_ | _ | hfield | ⟨hfield, h⟩)
    · exact ⟨_, hfield, .inl rfl⟩
    · exact ⟨_, hfield, .inr h⟩
  · rintro ⟨field, hfield, rfl | h⟩
    · exact .key hfield
    · exact .field hfield h

/-- What holds of a value if it holds of its parts. -/
@[elab_as_elim]
theorem inductionOn {P : Json → Prop} (v : Json) (null : P .null) (bool : ∀ b, P (.bool b))
    (number : ∀ x, P (.number x)) (string : ∀ text, P (.string text))
    (array : ∀ items, (∀ item ∈ items, P item) → P (.array items))
    (object : ∀ fields, (∀ field ∈ fields, P field.2) → P (.object fields)) : P v := by
  match v with
  | .null => exact null
  | .bool b => exact bool b
  | .number x => exact number x
  | .string text => exact string text
  | .array items =>
    exact array items fun item _ => inductionOn item null bool number string array object
  | .object fields =>
    refine object fields fun field hfield => ?_
    have hsize := List.sizeOf_lt_of_mem hfield
    have hfield : sizeOf field = 1 + sizeOf field.1 + sizeOf field.2 := rfl
    exact inductionOn field.2 null bool number string array object
termination_by sizeOf v

/-! ## Numbers -/

theorem hasNoSeparator_wholeText (n : Int) : HasNoSeparator (wholeText n) := by
  have hsign : ¬ Text.IsSeparator '-' := by decide
  unfold wholeText
  split
  · exact hasNoSeparator_cons_iff.mpr ⟨hsign, hasNoSeparator_ofNat _⟩
  · exact hasNoSeparator_ofNat _

theorem hasNoSeparator_replicate_zero (n : Nat) : HasNoSeparator (List.replicate n '0') :=
  fun _ hc => (List.mem_replicate.mp hc).2 ▸ by decide

theorem hasNoSeparator_positionalDigits (d : Number.Decimal) :
    HasNoSeparator (Number.Binary64.positionalDigits d) := by
  have hpoint : ¬ Text.IsSeparator '.' := by decide
  have hzero : ¬ Text.IsSeparator '0' := by decide
  have hdigits := hasNoSeparator_ofNat d.digits
  unfold Number.Binary64.positionalDigits
  dsimp only
  repeat' split
  · simp [hdigits, hasNoSeparator_replicate_zero]
  · simp [hpoint, hdigits.sublist (List.take_sublist _ _), hdigits.sublist (List.drop_sublist _ _)]
  · simp [hpoint, hzero, hdigits, hasNoSeparator_replicate_zero]

theorem hasNoSeparator_scientificDigits (d : Number.Decimal) (e : Int) :
    HasNoSeparator (Number.Binary64.scientificDigits d e) := by
  have hpoint : ¬ Text.IsSeparator '.' := by decide
  have hletter : ¬ Text.IsSeparator 'e' := by decide
  have hsign : ¬ Text.IsSeparator '-' ∧ ¬ Text.IsSeparator '+' := by decide
  have hdigits := hasNoSeparator_ofNat d.digits
  have hexponent := hasNoSeparator_ofNat e.natAbs
  unfold Number.Binary64.scientificDigits
  dsimp only
  repeat' split
  all_goals simp [hpoint, hletter, hsign, hdigits, hexponent, hdigits.sublist (List.take_sublist _ _),
    hdigits.sublist (List.tail_sublist _)]

theorem hasNoSeparator_number (x : Json.Number) : HasNoSeparator x.text := by
  cases x with
  | whole n => exact hasNoSeparator_wholeText n
  | binary x =>
    have hsign : HasNoSeparator x.signText := by
      unfold Number.Binary64.signText
      split <;> decide
    have hpoint : HasNoSeparator ['.', '0'] := by decide
    refine hasNoSeparator_append_iff.mpr ⟨hsign, ?_⟩
    split
    · unfold Number.Binary64.withPoint
      split
      · exact hasNoSeparator_positionalDigits _
      · exact hasNoSeparator_append_iff.mpr ⟨hasNoSeparator_positionalDigits _, hpoint⟩
    · exact hasNoSeparator_scientificDigits _ _

/-! ## Values -/

theorem hasNoSeparator_newLine (n : Nat) : HasNoSeparator (newLine n) :=
  hasNoSeparator_cons_iff.mpr ⟨by decide, Text.hasNoSeparator_spaces n⟩

theorem hasNoSeparator_followers_iff {α : Type} {print : α → Text} {n : Nat} {items : List α} :
    HasNoSeparator (followers print n items) ↔ ∀ item ∈ items, HasNoSeparator (print item) := by
  have hcomma : ¬ Text.IsSeparator ',' := by decide
  simp [followers, hasNoSeparator_flatMap_iff, hasNoSeparator_newLine, hcomma]

theorem hasNoSeparator_array_iff {n : Nat} {items : List Json} :
    HasNoSeparator (prettyAt (spaces n) (.array items)) ↔
      ∀ item ∈ items, HasNoSeparator (prettyAt (spaces (n + 2)) item) := by
  have hopen : ¬ Text.IsSeparator '[' := by decide
  have hclose : ¬ Text.IsSeparator ']' := by decide
  cases items with
  | nil => exact iff_of_true (show HasNoSeparator "[]".toList by decide) (by simp)
  | cons item more =>
    simp [prettyAt_array_cons, hasNoSeparator_followers_iff, hasNoSeparator_newLine, hopen, hclose]

theorem hasNoSeparator_printField_iff {n : Nat} {field : Text × Json} :
    HasNoSeparator (printField n field) ↔
      HasNoSeparator field.1 ∧ HasNoSeparator (prettyAt (spaces n) field.2) := by
  have hcolon : ¬ Text.IsSeparator ':' := by decide
  have hblank : ¬ Text.IsSeparator ' ' := by decide
  simp [printField, Text.hasNoSeparator_quote_iff, hcolon, hblank]

theorem hasNoSeparator_object_iff {n : Nat} {fields : List (Text × Json)} :
    HasNoSeparator (prettyAt (spaces n) (.object fields)) ↔ ∀ field ∈ fields,
      HasNoSeparator field.1 ∧ HasNoSeparator (prettyAt (spaces (n + 2)) field.2) := by
  have hopen : ¬ Text.IsSeparator '{' := by decide
  have hclose : ¬ Text.IsSeparator '}' := by decide
  cases fields with
  | nil => exact iff_of_true (show HasNoSeparator "\x7b\x7d".toList by decide) (by simp)
  | cons field more =>
    simp [prettyAt_object_cons, hasNoSeparator_followers_iff, hasNoSeparator_printField_iff,
      hasNoSeparator_newLine, hopen, hclose]

/-- **A printed value has the separators of its strings and keys.** -/
theorem hasNoSeparator_prettyAt_iff {v : Json} {n : Nat} :
    HasNoSeparator (prettyAt (spaces n) v) ↔ ∀ text, v.HasText text → HasNoSeparator text := by
  induction v using inductionOn generalizing n with
  | null => exact iff_of_true (show HasNoSeparator "null".toList by decide) (by rintro _ ⟨⟩)
  | bool b =>
    refine iff_of_true ?_ (by rintro _ ⟨⟩)
    cases b
    · exact (by decide : HasNoSeparator "false".toList)
    · exact (by decide : HasNoSeparator "true".toList)
  | number x => exact iff_of_true (hasNoSeparator_number x) (by rintro _ ⟨⟩)
  | string text => simp [prettyAt, Text.hasNoSeparator_quote_iff, hasText_string_iff]
  | array items ih =>
    rw [hasNoSeparator_array_iff, forall₂_congr fun item hitem => ih item hitem]
    simp only [hasText_array_iff]
    constructor
    · rintro h text ⟨item, hitem, htext⟩
      exact h item hitem text htext
    · exact fun h item hitem text htext => h text ⟨item, hitem, htext⟩
  | object fields ih =>
    rw [hasNoSeparator_object_iff, forall₂_congr fun field hfield => and_congr_right' (ih field hfield)]
    simp only [hasText_object_iff]
    constructor
    · rintro h _ ⟨field, hfield, rfl | htext⟩
      · exact (h field hfield).1
      · exact (h field hfield).2 _ htext
    · exact fun h field hfield => ⟨h _ ⟨field, hfield, .inl rfl⟩,
        fun text htext => h text ⟨field, hfield, .inr htext⟩⟩

/-! ## Messages -/

theorem hasNoSeparator_toString (n : Nat) : HasNoSeparator (toString n).toList := by
  have htext : (toString n).toList = Text.ofNat n := String.toList_ofList
  rw [htext]
  exact hasNoSeparator_ofNat n

theorem hasNoSeparator_cause {cause : Cause} (h : cause.IsLexical) :
    HasNoSeparator cause.message.toList := by
  cases cause with
  | mismatch m => exact h.elim
  | _ => decide +kernel

/-- **What is said about a JSON text has no separators.** -/
theorem hasNoSeparator_message {text : Text} {fault : Fault} (h : parse text = .error fault) :
    HasNoSeparator (fault.message text).toList := by
  have hline : HasNoSeparator " at line ".toList := by decide
  have hcolumn : HasNoSeparator " column ".toList := by decide
  unfold Fault.message
  simp only [String.toList_append, hasNoSeparator_append_iff]
  exact ⟨⟨⟨⟨hasNoSeparator_cause (isLexical_of_parse h), hline⟩, hasNoSeparator_toString _⟩, hcolumn⟩,
    hasNoSeparator_toString _⟩

end AmdBundle.Json
