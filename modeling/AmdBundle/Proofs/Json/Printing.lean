import AmdBundle.Proofs.Json.Frame

/-!
# Ways to print JSON

The two ways to print a value differ in the blanks alone, between its parts and behind its colons.

* `Layout` : what both have in common; `Layout.compact`, `Layout.pretty` : the two;
* `Layout.member` : a member of an object.
-/

set_option autoImplicit false

namespace AmdBundle.Json
open Text (spaces newLine)

/-- A way to print values, at some distance from the left. Items and members stand two blanks further to
the right than their brackets. -/
structure Layout where
  print : Nat → Json → Text
  /-- What stands before an item, before a member and before a closing bracket. -/
  gap : Nat → Text
  /-- What stands behind a colon. -/
  space : Text
  isBlank_gap (n : Nat) : IsBlank (gap n)
  isBlank_space : IsBlank space
  print_null (n : Nat) : print n .null = "null".toList
  print_bool (n : Nat) (b : Bool) : print n (.bool b) = boolText b
  print_number (n : Nat) (x : Json.Number) : print n (.number x) = x.text
  print_string (n : Nat) (s : Text) : print n (.string s) = Text.quote s
  print_empty (n : Nat) : print n (.array []) = ['[', ']']
  print_array (n : Nat) (item : Json) (more : List Json) : print n (.array (item :: more)) =
    '[' :: (gap (n + 2) ++ (',' :: gap (n + 2)).intercalate ((item :: more).map (print (n + 2))) ++
      gap n ++ [']'])
  print_object (n : Nat) (field : Text × Json) (more : List (Text × Json)) :
    print n (.object (field :: more)) =
      '{' :: (gap (n + 2) ++ (',' :: gap (n + 2)).intercalate ((field :: more).map fun field =>
        Text.quote field.1 ++ ':' :: (space ++ print (n + 2) field.2)) ++ gap n ++ ['}'])

namespace Layout

/-- A value as a text of its own. -/
def text (layout : Layout) (v : Json) : Text :=
  layout.print 0 v

/-- A member of an object, at some distance from the left. -/
def member (layout : Layout) (n : Nat) (field : Text × Json) : Text :=
  Text.quote field.1 ++ ':' :: (layout.space ++ layout.print n field.2)

theorem member_append (layout : Layout) (n : Nat) (field : Text × Json) (rest : Text) :
    layout.member n field ++ rest = '"' :: (field.1.flatMap Text.jsonEscape ++
      '"' :: ':' :: (layout.space ++ (layout.print n field.2 ++ rest))) := by
  simp [member, Text.quote]

end Layout

/-! ## Without blanks -/

theorem compactItems_cons (item : Json) (more : List Json) :
    compactItems (item :: more) = [','].intercalate ((item :: more).map Json.compact) := by
  induction more generalizing item with
  | nil => simp [compactItems]
  | cons second more ih =>
    rw [compactItems, ih]
    · simp [Lists.intercalate_cons]
    · exact List.cons_ne_nil _ _

theorem compactFields_cons (field : Text × Json) (more : List (Text × Json)) :
    compactFields (field :: more) = [','].intercalate ((field :: more).map fun field =>
      Text.quote field.1 ++ ':' :: Json.compact field.2) := by
  induction more generalizing field with
  | nil => simp [compactFields]
  | cons second more ih =>
    rw [compactFields, ih]
    · simp [Lists.intercalate_cons]
    · exact List.cons_ne_nil _ _

def Layout.compact : Layout where
  print _ := Json.compact
  gap _ := []
  space := []
  isBlank_gap _ := isBlank_nil
  isBlank_space := isBlank_nil
  print_null _ := by rw [Json.compact]
  print_bool _ b := by rw [Json.compact]
  print_number _ x := by rw [Json.compact]
  print_string _ s := by rw [Json.compact]
  print_empty _ := by rw [Json.compact, compactItems]; rfl
  print_array _ item more := by rw [Json.compact, compactItems_cons]; simp
  print_object _ field more := by rw [Json.compact, compactFields_cons]; simp

/-! ## With every item on a line of its own -/

theorem append_followers {α : Type} (print : α → Text) (n : Nat) (item : α) (more : List α) :
    print item ++ followers print n more = (',' :: newLine n).intercalate ((item :: more).map print) := by
  simp [Lists.intercalate_cons, followers, List.flatMap_map]

def Layout.pretty : Layout where
  print n := prettyAt (spaces n)
  gap := newLine
  space := [' ']
  isBlank_gap := isBlank_newLine
  isBlank_space := by simp [IsBlank, isSpace]
  print_null n := by rw [prettyAt]
  print_bool n b := by rw [prettyAt]
  print_number n x := by rw [prettyAt]
  print_string n s := by rw [prettyAt]
  print_empty n := by rw [prettyAt]; rfl
  print_array n item more := by
    rw [prettyAt_array_cons, ← append_followers, List.append_assoc (newLine (n + 2))]
  print_object n field more := by
    rw [prettyAt_object_cons, List.append_assoc (newLine (n + 2)), append_followers]
    rfl

theorem Layout.text_compact (v : Json) : Layout.compact.text v = v.compact := rfl

theorem Layout.text_pretty (v : Json) : Layout.pretty.text v = v.pretty := rfl

end AmdBundle.Json
