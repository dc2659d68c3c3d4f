import AmdBundle.Json.Printer
import AmdBundle.Proofs.Text.Indent
import AmdBundle.Proofs.Text.Quoted

/-!
# The layout of printed JSON

Between the brackets of a value every item begins a line of its own. Strings print no line feed, so
every line feed of a printed value is one of these.

* `IsWhole` : a value all of whose numbers are whole numbers of 64 bits;
* `followers` : the items behind the first one, as they are printed; `prettyItems_cons`,
  `prettyFields_cons` : items are the first one and its followers;
* `shift_prettyAt` : a value that is moved to the right is the value printed further right.
-/

set_option autoImplicit false

namespace AmdBundle.Json

open Text (spaces newLine shift)

/-- All numbers of the value are whole numbers of 64 bits, with or without sign. -/
inductive IsWhole : Json → Prop where
  | null : IsWhole .null
  | bool (b : Bool) : IsWhole (.bool b)
  | number {n : Int} (low : -Int.pow 2 63 ≤ n) (high : n < Int.pow 2 64) : IsWhole (.number (.whole n))
  | string (text : Text) : IsWhole (.string text)
  | array {items : List Json} (all : ∀ item ∈ items, IsWhole item) : IsWhole (.array items)
  | object {fields : List (Text × Json)} (all : ∀ field ∈ fields, IsWhole field.2) :
      IsWhole (.object fields)

/-! ## Items on lines of their own -/

/-- Items that follow a first one, each behind a comma and on a line of its own. -/
def followers {α : Type} (print : α → Text) (n : Nat) (items : List α) : Text :=
  items.flatMap fun item => ',' :: (newLine n ++ print item)

/-- A key and its value. -/
def printField (n : Nat) (field : Text × Json) : Text :=
  Text.quote field.1 ++ ':' :: ' ' :: prettyAt (spaces n) field.2

theorem prettyItems_cons (n : Nat) (item : Json) (more : List Json) :
    prettyItems (spaces n) (item :: more) =
      newLine n ++ prettyAt (spaces n) item ++ followers (prettyAt (spaces n)) n more := by
  induction more generalizing item with
  | nil => simp [prettyItems, followers, newLine]
  | cons second more ih =>
    rw [prettyItems, ih]
    · simp [followers, newLine]
    · exact List.cons_ne_nil _ _

theorem prettyFields_cons (n : Nat) (field : Text × Json) (more : List (Text × Json)) :
    prettyFields (spaces n) (field :: more) =
      newLine n ++ printField n field ++ followers (printField n) n more := by
  induction more generalizing field with
  | nil => simp [prettyFields, followers, newLine, printField]
  | cons second more ih =>
    rw [prettyFields, ih]
    · simp [followers, newLine, printField]
    · exact List.cons_ne_nil _ _

theorem prettyAt_array_cons (n : Nat) (item : Json) (more : List Json) :
    prettyAt (spaces n) (.array (item :: more)) =
      '[' :: (newLine (n + 2) ++ prettyAt (spaces (n + 2)) item ++
        followers (prettyAt (spaces (n + 2))) (n + 2) more ++ newLine n ++ [']']) := by
  have hinner : inner (spaces n) = spaces (n + 2) := rfl
  rw [prettyAt, hinner, prettyItems_cons]
  simp [newLine]

theorem prettyAt_object_cons (n : Nat) (field : Text × Json) (more : List (Text × Json)) :
    prettyAt (spaces n) (.object (field :: more)) =
      '{' :: (newLine (n + 2) ++ printField (n + 2) field ++
        followers (printField (n + 2)) (n + 2) more ++ newLine n ++ ['}']) := by
  have hinner : inner (spaces n) = spaces (n + 2) := rfl
  rw [prettyAt, hinner, prettyFields_cons]
  simp [newLine]

/-! ## Moving a value to the right -/

theorem shift_followers {α : Type} {print print' : α → Text} {k n : Nat} {items : List α}
    (h : ∀ item ∈ items, shift k (print item) = print' item) :
    shift k (followers print n items) = followers print' (n + k) items := by
  induction items with
  | nil => rfl
  | cons item more ih =>
    obtain ⟨hitem, hmore⟩ := List.forall_mem_cons.mp h
    have hrest := ih hmore
    unfold followers at hrest ⊢
    rw [List.flatMap_cons, List.flatMap_cons, Text.shift_append, hrest, Text.shift_cons (by decide),
      Text.shift_append, Text.shift_newLine, hitem]

theorem ne_of_isDigit {c d : Char} (hc : c.isDigit = true) (hd : d.isDigit = false) : c ≠ d := by
  rintro rfl
  rw [hc] at hd
  cases hd

theorem feed_not_mem_wholeText (n : Int) : '\n' ∉ wholeText n := by
  have hdigits : '\n' ∉ Text.ofNat n.natAbs := fun hc =>
    ne_of_isDigit (Nat.isDigit_of_mem_toDigits (by decide) (by decide) hc) (d := '\n') rfl rfl
  unfold wholeText
  split
  · simp [hdigits]
  · exact hdigits

theorem shift_printField {k n : Nat} {field : Text × Json}
    (h : shift k (prettyAt (spaces n) field.2) = prettyAt (spaces (n + k)) field.2) :
    shift k (printField n field) = printField (n + k) field := by
  rw [printField, Text.shift_append, Text.shift_of_not_mem (Text.feed_not_mem_quote _), Text.shift_cons (by decide),
    Text.shift_cons (by decide), h, printField]

/-- **A printed value moves as a whole.** -/
theorem shift_prettyAt {v : Json} (hv : IsWhole v) (k n : Nat) :
    shift k (prettyAt (spaces n) v) = prettyAt (spaces (n + k)) v := by
  induction hv generalizing n with
  | null => rfl
  | bool b => cases b <;> rfl
  | @number m => exact Text.shift_of_not_mem (feed_not_mem_wholeText m) k
  | string text => exact Text.shift_of_not_mem (Text.feed_not_mem_quote text) k
  | @array items _ ih =>
    cases items with
    | nil => rfl
    | cons item more =>
      obtain ⟨hitem, hmore⟩ := List.forall_mem_cons.mp ih
      simp only [prettyAt_array_cons, Text.shift_append, Text.shift_cons (c := '[') (by decide), Text.shift_newLine,
        hitem, shift_followers fun i hi => hmore i hi (n + 2), Nat.add_right_comm n 2 k]
      rfl
  | @object fields _ ih =>
    cases fields with
    | nil => rfl
    | cons field more =>
      obtain ⟨hfield, hmore⟩ := List.forall_mem_cons.mp ih
      simp only [prettyAt_object_cons, Text.shift_append, Text.shift_cons (c := '{') (by decide), Text.shift_newLine,
        shift_printField (hfield (n + 2)),
        shift_followers fun f hf => shift_printField (hmore f hf (n + 2)), Nat.add_right_comm n 2 k]
      rfl

end AmdBundle.Json
