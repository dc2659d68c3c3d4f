import AmdBundle.Json.Reader
import AmdBundle.Proofs.Json.Layout
import AmdBundle.Proofs.Json.Lexeme

/-!
# Printed items and members are read back

What stands between the brackets of a printed value is read back item by item, if every item is read
back whatever stands behind it.

* `items_parts` : the items of a list, with any blanks between them; `items_printed` : each on a line
  of its own; `members_printed` : the members of an object;
* `ofPairs_of_nodup`, `nodup_ofPairs` : members become fields as they are exactly if no key is repeated.
-/

set_option autoImplicit false

namespace AmdBundle.Json

open Text (spaces newLine)

/-! ## Between brackets -/

theorem skipSpace_cons {c : Char} (hc : isSpace c = false) (text : Text) :
    skipSpace (c :: text) = c :: text :=
  List.dropWhile_cons_of_neg (by simp [hc])

/-- The text is made of blanks. -/
def IsBlank (text : Text) : Prop :=
  ∀ c ∈ text, isSpace c = true

theorem isBlank_nil : IsBlank [] := nofun

theorem isBlank_newLine (n : Nat) : IsBlank (newLine n) := by
  simp [IsBlank, newLine, spaces, isSpace]

theorem skipSpace_append {gap : Text} (h : IsBlank gap) (text : Text) :
    skipSpace (gap ++ text) = skipSpace text :=
  List.dropWhile_append_of_pos h

/-- The text begins with a character that is no blank and closes no list. -/
def StartsItem (text : Text) : Prop :=
  ∃ c rest, text = c :: rest ∧ isSpace c = false ∧ c ≠ ']'

theorem StartsItem.append {text : Text} (h : StartsItem text) (rest : Text) :
    StartsItem (text ++ rest) := by
  obtain ⟨c, more, rfl, hspace, hclose⟩ := h
  exact ⟨c, more ++ rest, rfl, hspace, hclose⟩

theorem StartsItem.skipSpace {text : Text} (h : StartsItem text) : skipSpace text = text := by
  obtain ⟨c, rest, rfl, hspace, -⟩ := h
  exact skipSpace_cons hspace rest

/-- A part of a text from which a reader takes an item. -/
structure ReadsPart {α : Type} (read : Reader α) (item : α) (part : Text) : Prop where
  starts : StartsItem part
  reads (rest : Text) (hrest : EndsNumber rest) : read (part ++ rest) = .ok (item, rest)

section
variable {gap : Text} (hgap : IsBlank gap)
include hgap

theorem nextItem_close (first : Bool) (rest : Text) :
    nextItem first (gap ++ ']' :: rest) = .ok (.done (']' :: rest)) := by
  simp [nextItem, skipSpace_append hgap, skipSpace_cons (c := ']') rfl]

theorem nextItem_first {text : Text} (h : StartsItem text) :
    nextItem true (gap ++ text) = .ok (.more text) := by
  rw [nextItem, skipSpace_append hgap, h.skipSpace]
  obtain ⟨c, rest, rfl, -, hclose⟩ := h
  simp [hclose]

theorem nextItem_comma {text : Text} (h : StartsItem text) :
    nextItem false (',' :: (gap ++ text)) = .ok (.more text) := by
  simp only [nextItem, skipSpace_cons (c := ',') rfl, skipSpace_append hgap, h.skipSpace]
  obtain ⟨c, rest, rfl, -, hclose⟩ := h
  simp [hclose]

/-- Blanks do not go on a number, nor does what does not by itself. -/
theorem endsNumber_append {rest : Text} (hrest : EndsNumber rest) : EndsNumber (gap ++ rest) := by
  cases gap with
  | nil => exact hrest
  | cons c more =>
    have hc := hgap c List.mem_cons_self
    simp only [isSpace, Bool.or_eq_true, beq_iff_eq] at hc
    rcases hc with ((rfl | rfl) | rfl) | rfl <;> exact endsNumber_cons (by decide)

/-- A closing bracket, and blanks before it, do not go on a number. -/
theorem endsNumber_close (rest : Text) : EndsNumber (gap ++ ']' :: rest) :=
  endsNumber_append hgap (endsNumber_cons (by decide))

end

theorem endsNumber_parts (gap : Text) {close : Text} (hclose : IsBlank close) (parts : List Text)
    (rest : Text) : EndsNumber (parts.flatMap (',' :: gap ++ ·) ++ (close ++ ']' :: rest)) := by
  cases parts with
  | nil => exact endsNumber_close hclose rest
  | cons => exact endsNumber_cons (by decide)

section
variable {α : Type} {read : Reader α} {lead gap close : Text} {all : List α} {parts : List Text}

/-- The items behind the first one. -/
theorem itemsFrom_parts (hgap : IsBlank gap) (hclose : IsBlank close)
    (hparts : List.Forall₂ (ReadsPart read) all parts) {fuel : Nat} (hfuel : all.length < fuel)
    (rest : Text) :
    itemsFrom read fuel false (parts.flatMap (',' :: gap ++ ·) ++ (close ++ ']' :: rest)) =
      .ok (all, ']' :: rest) := by
  induction hparts generalizing fuel with
  | nil =>
    obtain ⟨fuel, rfl⟩ := Nat.exists_eq_succ_of_ne_zero (Nat.ne_of_gt hfuel)
    simp [itemsFrom, nextItem_close hclose]
  | @cons item part items parts hpart _ ih =>
    obtain ⟨fuel, rfl⟩ := Nat.exists_eq_succ_of_ne_zero (Nat.ne_of_gt (Nat.zero_lt_of_lt hfuel))
    have htext : (part :: parts).flatMap (',' :: gap ++ ·) ++ (close ++ ']' :: rest) =
        ',' :: (gap ++ (part ++ (parts.flatMap (',' :: gap ++ ·) ++ (close ++ ']' :: rest)))) := by
      simp
    have hends := endsNumber_parts gap hclose parts rest
    have hrest := ih (Nat.lt_of_succ_lt_succ hfuel)
    rw [htext, itemsFrom, nextItem_comma hgap (hpart.starts.append _), Outcome.bind_ok]
    simp only [hpart.reads _ hends, Outcome.bind_ok, hrest]

/-- **Items between commas are read back**, from the character behind the opening bracket on. -/
theorem items_parts (hlead : IsBlank lead) (hgap : IsBlank gap) (hclose : IsBlank close)
    (hparts : List.Forall₂ (ReadsPart read) all parts) (rest : Text) :
    items read (lead ++ (',' :: gap).intercalate parts ++ close ++ ']' :: rest) =
      .ok (all, rest) := by
  have hend : closeList (']' :: rest) = .ok rest := by
    simp [closeList, skipSpace_cons (c := ']') rfl]
  cases hparts with
  | nil =>
    have hdone : nextItem true (lead ++ (close ++ ']' :: rest)) = .ok (.done (']' :: rest)) := by
      simp [nextItem, skipSpace_append hlead, skipSpace_append hclose, skipSpace_cons (c := ']') rfl]
    simp [items, itemsFrom, hdone, hend]
  | @cons item part more parts hpart hmore =>
    have htext : lead ++ (',' :: gap).intercalate (part :: parts) ++ close ++ ']' :: rest =
        lead ++ (part ++ (parts.flatMap (',' :: gap ++ ·) ++ (close ++ ']' :: rest))) := by
      simp [Lists.intercalate_cons]
    have hlength : parts.length ≤ (parts.flatMap (',' :: gap ++ ·)).length :=
      Lists.length_le_length_flatMap (by simp) parts
    have hfuel : more.length < (lead ++ (part ++ (parts.flatMap (',' :: gap ++ ·) ++
        (close ++ ']' :: rest)))).length := by
      rw [hmore.length_eq]
      simp only [List.length_append, List.length_cons] at hlength ⊢
      omega
    have hrest := itemsFrom_parts hgap hclose hmore hfuel rest
    have hends := endsNumber_parts gap hclose parts rest
    rw [htext, items, itemsFrom, nextItem_first hlead (hpart.starts.append _), Outcome.bind_ok]
    simp only [hpart.reads _ hends, Outcome.bind_ok, hrest, hend]

theorem items_nil (read : Reader α) (rest : Text) : items read (']' :: rest) = .ok ([], rest) :=
  items_parts isBlank_nil isBlank_nil isBlank_nil .nil rest

/-- Printed items are read back, from the character behind the opening bracket on. -/
theorem items_printed {print : α → Text} {n m : Nat} {item : α} {more : List α}
    (hread : ∀ i ∈ item :: more, ∀ rest, EndsNumber rest → read (print i ++ rest) = .ok (i, rest))
    (hstart : ∀ i ∈ item :: more, StartsItem (print i)) (rest : Text) :
    items read (newLine n ++ print item ++ followers print n more ++ newLine m ++ ']' :: rest) =
      .ok (item :: more, rest) := by
  have hparts : List.Forall₂ (ReadsPart read) (item :: more) ((item :: more).map print) :=
    List.forall₂_map_right_iff.mpr (List.forall₂_same.mpr fun i hi => ⟨hstart i hi, hread i hi⟩)
  have htext : print item ++ followers print n more =
      (',' :: newLine n).intercalate ((item :: more).map print) := by
    simp [Lists.intercalate_cons, followers, List.flatMap_map]
  rw [List.append_assoc (newLine n), htext]
  exact items_parts (isBlank_newLine n) (isBlank_newLine n) (isBlank_newLine m) hparts rest

end

/-! ## Between braces -/

theorem endsNumber_followers {α : Type} (print : α → Text) (n m : Nat) (items : List α) (rest : Text) :
    EndsNumber (followers print n items ++ (newLine m ++ rest)) := by
  cases items with
  | nil => exact endsNumber_cons (by decide)
  | cons item more => exact endsNumber_cons (by decide)

section
variable {gap : Text} (hgap : IsBlank gap)
include hgap

theorem nextKey_close (first : Bool) (rest : Text) :
    nextKey first (gap ++ '}' :: rest) = .ok (.done ('}' :: rest)) := by
  simp [nextKey, skipSpace_append hgap, skipSpace_cons (c := '}') rfl]

theorem nextKey_first (text : Text) : nextKey true (gap ++ '"' :: text) = .ok (.more ('"' :: text)) := by
  simp [nextKey, skipSpace_append hgap, skipSpace_cons (c := '"') rfl]

theorem nextKey_comma (text : Text) :
    nextKey false (',' :: (gap ++ '"' :: text)) = .ok (.more ('"' :: text)) := by
  simp [nextKey, skipSpace_cons (c := ',') rfl, skipSpace_append hgap, skipSpace_cons (c := '"') rfl]

end

theorem colon_cons (text : Text) : colon (':' :: text) = .ok text := by
  simp [colon, skipSpace_cons (c := ':') rfl]

/-- A printed member, without its opening quote. -/
theorem printField_append (n : Nat) (field : Text × Json) (rest : Text) :
    printField n field ++ rest = '"' :: (field.1.flatMap Text.jsonEscape ++
      '"' :: ':' :: ' ' :: (prettyAt (spaces n) field.2 ++ rest)) := by
  simp [printField, Text.quote]

section
variable {read : Reader Json} {n m : Nat}

theorem membersFrom_followers {fields : List (Text × Json)}
    (hread : ∀ field ∈ fields, ∀ rest, EndsNumber rest →
      read (' ' :: (prettyAt (spaces n) field.2 ++ rest)) = .ok (field.2, rest))
    {fuel : Nat} (hfuel : fields.length < fuel) (rest : Text) :
    membersFrom read fuel false (followers (printField n) n fields ++ (newLine m ++ '}' :: rest)) =
      .ok (fields, '}' :: rest) := by
  induction fields generalizing fuel with
  | nil =>
    obtain ⟨fuel, rfl⟩ := Nat.exists_eq_succ_of_ne_zero (Nat.ne_of_gt hfuel)
    simp [membersFrom, followers, nextKey_close (isBlank_newLine m)]
  | cons field more ih =>
    obtain ⟨fuel, rfl⟩ := Nat.exists_eq_succ_of_ne_zero (Nat.ne_of_gt (Nat.zero_lt_of_lt hfuel))
    obtain ⟨hfield, hmore⟩ := List.forall_mem_cons.mp hread
    have htext : followers (printField n) n (field :: more) ++ (newLine m ++ '}' :: rest) =
        ',' :: (newLine n ++ (printField n field ++
          (followers (printField n) n more ++ (newLine m ++ '}' :: rest)))) := by
      simp [followers]
    have hrest := ih hmore (Nat.lt_of_succ_lt_succ hfuel)
    rw [htext, membersFrom, printField_append, nextKey_comma (isBlank_newLine n), Outcome.bind_ok]
    simp [readString_quote, colon_cons, hfield _ (endsNumber_followers _ n m more _), hrest]

theorem members_nil (read : Reader Json) (rest : Text) :
    members read ('}' :: rest) = .ok ([], rest) := by
  simp [members, membersFrom, nextKey, closeObject, skipSpace_cons (c := '}') rfl]

/-- Printed members are read back, from the character behind the opening brace on. -/
theorem members_printed {field : Text × Json} {more : List (Text × Json)}
    (hread : ∀ f ∈ field :: more, ∀ rest, EndsNumber rest →
      read (' ' :: (prettyAt (spaces n) f.2 ++ rest)) = .ok (f.2, rest)) (rest : Text) :
    members read (newLine n ++ printField n field ++ followers (printField n) n more ++ newLine m ++
      '}' :: rest) = .ok (field :: more, rest) := by
  obtain ⟨hfield, hmore⟩ := List.forall_mem_cons.mp hread
  have htext : newLine n ++ printField n field ++ followers (printField n) n more ++ newLine m ++
      '}' :: rest = newLine n ++ (printField n field ++
        (followers (printField n) n more ++ (newLine m ++ '}' :: rest))) := by
    simp
  have hall {fuel : Nat} (hfuel : more.length < fuel) : membersFrom read (fuel + 1) true
      (newLine n ++ (printField n field ++
        (followers (printField n) n more ++ (newLine m ++ '}' :: rest)))) =
        .ok (field :: more, '}' :: rest) := by
    rw [membersFrom, printField_append, nextKey_first (isBlank_newLine n), Outcome.bind_ok]
    simp [readString_quote, colon_cons, hfield _ (endsNumber_followers _ n m more _),
      membersFrom_followers (n := n) (m := m) hmore hfuel rest]
  have hlength : more.length ≤ (followers (printField n) n more).length :=
    Lists.length_le_length_flatMap (by simp) more
  rw [htext, members, hall (by simp [newLine]; omega)]
  simp [closeObject, skipSpace_cons (c := '}') rfl]

end

/-! ## What was read -/

/-- Every item of a list was read from some text. -/
theorem exists_read_of_mem_items {α : Type} {read : Reader α} {text rest : Text} {all : List α}
    (h : items read text = .ok (all, rest)) {item : α} (hitem : item ∈ all) :
    ∃ front behind, read front = .ok (item, behind) := by
  have hfrom {fuel : Nat} {first : Bool} {text rest : Text} {all : List α}
      (h : itemsFrom read fuel first text = .ok (all, rest)) (hitem : item ∈ all) :
      ∃ front behind, read front = .ok (item, behind) := by
    induction fuel generalizing first text rest all with
    | zero => cases h
    | succ fuel ih =>
      obtain ⟨next, -, h⟩ := Outcome.bind_eq_ok_iff.mp h
      cases next with
      | done rest =>
        obtain ⟨rfl, -⟩ := Prod.mk.inj (Except.ok.inj h)
        cases hitem
      | more front =>
        obtain ⟨⟨found, behind⟩, hfound, h⟩ := Outcome.bind_eq_ok_iff.mp h
        obtain ⟨⟨others, last⟩, hothers, h⟩ := Outcome.bind_eq_ok_iff.mp h
        obtain ⟨rfl, -⟩ := Prod.mk.inj (Except.ok.inj h)
        rcases List.mem_cons.mp hitem with rfl | hitem
        · exact ⟨front, behind, hfound⟩
        · exact ih hothers hitem
  obtain ⟨⟨found, behind⟩, hfound, h⟩ := Outcome.bind_eq_ok_iff.mp h
  obtain ⟨last, -, h⟩ := Outcome.bind_eq_ok_iff.mp h
  obtain ⟨rfl, -⟩ := Prod.mk.inj (Except.ok.inj h)
  exact hfrom hfound hitem

/-- Every value of an object was read from some text. -/
theorem exists_read_of_mem_members {read : Reader Json} {text rest : Text}
    {all : List (Text × Json)} (h : members read text = .ok (all, rest)) {field : Text × Json}
    (hfield : field ∈ all) : ∃ front behind, read front = .ok (field.2, behind) := by
  have hfrom {fuel : Nat} {first : Bool} {text rest : Text} {all : List (Text × Json)}
      (h : membersFrom read fuel first text = .ok (all, rest)) (hfield : field ∈ all) :
      ∃ front behind, read front = .ok (field.2, behind) := by
    induction fuel generalizing first text rest all with
    | zero => cases h
    | succ fuel ih =>
      obtain ⟨next, -, h⟩ := Outcome.bind_eq_ok_iff.mp h
      cases next with
      | done rest =>
        obtain ⟨rfl, -⟩ := Prod.mk.inj (Except.ok.inj h)
        cases hfield
      | more front =>
        obtain ⟨⟨key, behindKey⟩, -, h⟩ := Outcome.bind_eq_ok_iff.mp h
        obtain ⟨behindColon, -, h⟩ := Outcome.bind_eq_ok_iff.mp h
        obtain ⟨⟨found, behind⟩, hfound, h⟩ := Outcome.bind_eq_ok_iff.mp h
        obtain ⟨⟨others, last⟩, hothers, h⟩ := Outcome.bind_eq_ok_iff.mp h
        obtain ⟨rfl, -⟩ := Prod.mk.inj (Except.ok.inj h)
        rcases List.mem_cons.mp hfield with rfl | hfield
        · exact ⟨behindColon, behind, hfound⟩
        · exact ih hothers hfield
  obtain ⟨⟨found, behind⟩, hfound, h⟩ := Outcome.bind_eq_ok_iff.mp h
  obtain ⟨last, -, h⟩ := Outcome.bind_eq_ok_iff.mp h
  obtain ⟨rfl, -⟩ := Prod.mk.inj (Except.ok.inj h)
  exact hfrom hfound hfield

/-! ## Keys -/

theorem insert_of_not_mem {key : Text} {value : Json} {fields : List (Text × Json)}
    (h : key ∉ fields.map Prod.fst) : insert key value fields = fields ++ [(key, value)] := by
  induction fields with
  | nil => rfl
  | cons field fields ih =>
    obtain ⟨hfield, hfields⟩ := not_or.mp (List.mem_cons.not.mp h)
    rw [insert, if_neg (Ne.symm hfield), ih hfields, List.cons_append]

theorem map_fst_insert (key : Text) (value : Json) (fields : List (Text × Json)) :
    (insert key value fields).map Prod.fst =
      if key ∈ fields.map Prod.fst then fields.map Prod.fst else fields.map Prod.fst ++ [key] := by
  induction fields with
  | nil => rfl
  | cons field fields ih =>
    by_cases hkey : field.1 = key
    · simp [insert, hkey]
    · by_cases hmem : key ∈ fields.map Prod.fst
      · simp [insert, hkey, ih, hmem]
      · simp [insert, hkey, ih, hmem, Ne.symm hkey]

theorem mem_of_mem_insert {key : Text} {value : Json} {fields : List (Text × Json)}
    {field : Text × Json} (h : field ∈ insert key value fields) :
    field = (key, value) ∨ field ∈ fields := by
  induction fields with
  | nil => exact Or.inl (List.mem_singleton.mp h)
  | cons first fields ih =>
    unfold insert at h
    split at h
    · next hkey =>
      rcases List.mem_cons.mp h with rfl | h
      · exact Or.inl (by rw [hkey])
      · exact Or.inr (List.mem_cons_of_mem _ h)
    · rcases List.mem_cons.mp h with rfl | h
      · exact Or.inr List.mem_cons_self
      · exact (ih h).imp_right (List.mem_cons_of_mem _)

theorem ofPairs_concat (pairs : List (Text × Json)) (pair : Text × Json) :
    ofPairs (pairs ++ [pair]) = insert pair.1 pair.2 (ofPairs pairs) := by
  simp [ofPairs]

/-- The fields of an object have distinct keys, and are among those that were read. -/
theorem nodup_ofPairs (pairs : List (Text × Json)) :
    ((ofPairs pairs).map Prod.fst).Nodup ∧ ofPairs pairs ⊆ pairs := by
  induction pairs using List.reverseRecOn with
  | nil => exact ⟨List.nodup_nil, List.Subset.refl _⟩
  | append_singleton pairs pair ih =>
    obtain ⟨hnodup, hsubset⟩ := ih
    rw [ofPairs_concat]
    refine ⟨?_, fun field hfield => ?_⟩
    · rw [map_fst_insert]
      split
      · exact hnodup
      · next hnew => exact Lists.nodup_append_singleton.mpr ⟨hnew, hnodup⟩
    · rcases mem_of_mem_insert hfield with rfl | hfield
      · simp
      · exact List.mem_append_left _ (hsubset hfield)

theorem ofPairs_of_nodup {fields : List (Text × Json)} (h : (fields.map Prod.fst).Nodup) :
    ofPairs fields = fields := by
  induction fields using List.reverseRecOn with
  | nil => rfl
  | append_singleton fields field ih =>
    rw [List.map_append, List.map_singleton] at h
    obtain ⟨hnew, hnodup⟩ := Lists.nodup_append_singleton.mp h
    rw [ofPairs_concat, ih hnodup, insert_of_not_mem hnew]

end AmdBundle.Json
