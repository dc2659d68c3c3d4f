import AmdBundle.Proofs.Json.Frame

/-!
# Printed JSON is read back

* `Fits` : a value that a reader can return: brackets are not too deep, no key stands twice in an
  object, all numbers are whole;
* `value_prettyAt` : a value that fits is read back from its printed text, whatever stands behind it;
* `fits_of_value` : a value that was read fits, if its numbers are whole;
* `parse_prettyAt` : so it is read back once more.
-/

set_option autoImplicit false

namespace AmdBundle.Json

open Text (spaces)

/-- A value of whole numbers and distinct keys, with at most so many brackets around each other. -/
inductive Fits : Nat → Json → Prop where
  | null (depth : Nat) : Fits depth .null
  | bool (depth : Nat) (b : Bool) : Fits depth (.bool b)
  | number {depth : Nat} {n : Int} (low : -Int.pow 2 63 ≤ n) (high : n < Int.pow 2 64) :
      Fits depth (.number (.whole n))
  | string (depth : Nat) (text : Text) : Fits depth (.string text)
  | array {depth : Nat} {items : List Json} (all : ∀ item ∈ items, Fits depth item) :
      Fits (depth + 1) (.array items)
  | object {depth : Nat} {fields : List (Text × Json)} (distinct : (fields.map Prod.fst).Nodup)
      (all : ∀ field ∈ fields, Fits depth field.2) : Fits (depth + 1) (.object fields)

theorem Fits.isWhole {depth : Nat} {v : Json} (h : Fits depth v) : IsWhole v := by
  induction h with
  | null => exact .null
  | bool _ b => exact .bool b
  | number low high => exact .number low high
  | string _ text => exact .string text
  | array _ ih => exact .array ih
  | object _ _ ih => exact .object ih

/-! ## Values -/

theorem value_of_scalar {c : Char} {rest : Text} {found : Except Fault (Json × Text)}
    (hc : isSpace c = false) (h : scalar? c rest = some found) (depth : Nat) :
    value depth (c :: rest) = found := by
  cases depth <;> simp [value, valueWith, skipSpace_cons hc, h]

theorem value_space (depth : Nat) (text : Text) : value depth (' ' :: text) = value depth text := by
  have hskip : skipSpace (' ' :: text) = skipSpace text := List.dropWhile_cons_of_pos rfl
  cases depth <;> simp [value, valueWith, hskip]

theorem value_list (depth : Nat) (text : Text) : value (depth + 1) ('[' :: text) =
    (items (value depth) text).map fun found => (.array found.1, found.2) := by
  simp [value, valueWith, skipSpace_cons (c := '[') rfl, scalar?, deeper]

theorem value_object (depth : Nat) (text : Text) : value (depth + 1) ('{' :: text) =
    (members (value depth) text).map fun found => (.object (ofPairs found.1), found.2) := by
  simp [value, valueWith, skipSpace_cons (c := '{') rfl, scalar?, deeper]

/-- A digit begins no other scalar. -/
theorem scalar?_digit {c : Char} (hc : c.isDigit = true) (rest : Text) :
    scalar? c rest =
      some ((readNumber true (c :: rest)).map fun found => (.number found.1, found.2)) := by
  have hne (d : Char) (hd : d.isDigit = false) : c ≠ d := ne_of_isDigit hc hd
  simp [scalar?, hc, hne 'n' rfl, hne 't' rfl, hne 'f' rfl, hne '"' rfl, hne '-' rfl]

theorem isSpace_digit {c : Char} (hc : c.isDigit = true) : isSpace c = false := by
  have hne (d : Char) (hd : d.isDigit = false) : c ≠ d := ne_of_isDigit hc hd
  simp [isSpace, hne ' ' rfl, hne '\n' rfl, hne '\t' rfl, hne '\r' rfl]

theorem exists_ofNat_eq (n : Nat) : ∃ c digits, Text.ofNat n = c :: digits ∧ c.isDigit = true := by
  obtain ⟨c, digits, h⟩ := List.exists_cons_of_ne_nil (Nat.toDigits_ne_nil (n := n) (b := 10))
  exact ⟨c, digits, h, isDigit_of_mem_ofNat (n := n) (by simp [Text.ofNat, h])⟩

/-- A whole number is read back. -/
theorem value_wholeText {n : Int} (low : -Int.pow 2 63 ≤ n) (high : n < Int.pow 2 64) {rest : Text}
    (hrest : EndsNumber rest) (depth : Nat) :
    value depth (wholeText n ++ rest) = .ok (.number (.whole n), rest) := by
  rw [show Int.pow 2 63 = 9223372036854775808 from rfl] at low
  rw [show Int.pow 2 64 = 18446744073709551616 from rfl] at high
  have hlimit : wordLimit = 18446744073709551615 := rfl
  have hfits : n.natAbs ≤ wordLimit := by omega
  unfold wholeText
  split
  · next hneg =>
    have hread := readNumber_ofNat hfits hrest false
    have hpower : Nat.pow 2 63 = 9223372036854775808 := rfl
    have hsmall : ¬ (n.natAbs = 0 ∨ Nat.pow 2 63 < n.natAbs) := by omega
    have hvalue : -(n.natAbs : Int) = n := by omega
    have hwhole : wholeNumber false n.natAbs rest = .ok (.whole n, rest) := by
      rw [wholeNumber, if_neg (by decide), if_neg hsmall, hvalue]
    refine value_of_scalar rfl ?_ depth
    simp [scalar?, hread, hwhole, Except.map]
  · next hpos =>
    obtain ⟨c, digits, heq, hdigit⟩ := exists_ofNat_eq n.natAbs
    have hread := readNumber_ofNat hfits hrest true
    have hvalue : (n.natAbs : Int) = n := by omega
    have hwhole : wholeNumber true n.natAbs rest = .ok (.whole n, rest) := by
      rw [wholeNumber, if_pos rfl, hvalue]
    rw [heq, List.cons_append] at hread ⊢
    refine value_of_scalar (isSpace_digit hdigit) ?_ depth
    rw [scalar?_digit hdigit, hread, hwhole]
    rfl

theorem startsItem_prettyAt {depth : Nat} {v : Json} (h : Fits depth v) (n : Nat) :
    StartsItem (prettyAt (spaces n) v) := by
  cases h with
  | null => exact ⟨'n', _, rfl, rfl, by decide⟩
  | bool depth b => cases b <;> exact ⟨_, _, rfl, rfl, by decide⟩
  | @number depth m =>
    show StartsItem (wholeText m)
    unfold wholeText
    split
    · exact ⟨'-', _, rfl, rfl, by decide⟩
    · obtain ⟨c, digits, heq, hdigit⟩ := exists_ofNat_eq m.natAbs
      exact ⟨c, digits, heq, isSpace_digit hdigit, ne_of_isDigit hdigit rfl⟩
  | string depth text => exact ⟨'"', _, rfl, rfl, by decide⟩
  | @array depth items =>
    cases items with
    | nil => exact ⟨'[', _, rfl, rfl, by decide⟩
    | cons item more => exact ⟨'[', _, prettyAt_array_cons n item more, rfl, by decide⟩
  | @object depth fields =>
    cases fields with
    | nil => exact ⟨'{', _, rfl, rfl, by decide⟩
    | cons field more => exact ⟨'{', _, prettyAt_object_cons n field more, rfl, by decide⟩

theorem value_bool (b : Bool) (depth : Nat) (rest : Text) :
    value depth (prettyAt [] (.bool b) ++ rest) = .ok (.bool b, rest) := by
  cases b with
  | true =>
    show value depth ('t' :: (['r', 'u', 'e'] ++ rest)) = .ok (.bool true, rest)
    refine value_of_scalar rfl ?_ depth
    rw [scalar?, if_neg (by decide), if_pos rfl, word_append]
    rfl
  | false =>
    show value depth ('f' :: (['a', 'l', 's', 'e'] ++ rest)) = .ok (.bool false, rest)
    refine value_of_scalar rfl ?_ depth
    rw [scalar?, if_neg (by decide), if_neg (by decide), if_pos rfl, word_append]
    rfl

theorem value_flatMap {escape : Char → Text} (hescape : IsEscape escape) (text : Text) (depth : Nat)
    (rest : Text) :
    value depth ('"' :: (text.flatMap escape ++ ['"']) ++ rest) = .ok (.string text, rest) := by
  have htext : '"' :: (text.flatMap escape ++ ['"']) ++ rest =
      '"' :: (text.flatMap escape ++ '"' :: rest) := by simp
  rw [htext]
  refine value_of_scalar rfl ?_ depth
  simp [scalar?, readString_flatMap hescape, Except.map]

theorem value_quote (text : Text) (depth : Nat) (rest : Text) :
    value depth (Text.quote text ++ rest) = .ok (.string text, rest) :=
  value_flatMap isEscape_json text depth rest

theorem value_scriptQuote (text : Text) (depth : Nat) (rest : Text) :
    value depth (Text.scriptQuote text ++ rest) = .ok (.string text, rest) :=
  value_flatMap isEscape_script text depth rest

/-- A printed list is read back if its items are. -/
theorem value_prettyAt_array {depth n : Nat} {items : List Json}
    (hread : ∀ item ∈ items, ∀ rest, EndsNumber rest →
      value depth (prettyAt (spaces (n + 2)) item ++ rest) = .ok (item, rest))
    (hstarts : ∀ item ∈ items, StartsItem (prettyAt (spaces (n + 2)) item)) (rest : Text) :
    value (depth + 1) (prettyAt (spaces n) (.array items) ++ rest) = .ok (.array items, rest) := by
  cases items with
  | nil =>
    show value (depth + 1) ('[' :: ']' :: rest) = .ok (.array [], rest)
    rw [value_list, items_nil]
    rfl
  | cons item more =>
    have hitems := items_printed (n := n + 2) (m := n) hread hstarts rest
    rw [prettyAt_array_cons, List.cons_append, value_list, List.append_assoc, List.singleton_append,
      hitems]
    rfl

/-- A printed object is read back if its values are. -/
theorem value_prettyAt_object {depth n : Nat} {fields : List (Text × Json)}
    (hread : ∀ field ∈ fields, ∀ rest, EndsNumber rest →
      value depth (prettyAt (spaces (n + 2)) field.2 ++ rest) = .ok (field.2, rest))
    (hdistinct : (fields.map Prod.fst).Nodup) (rest : Text) :
    value (depth + 1) (prettyAt (spaces n) (.object fields) ++ rest) = .ok (.object fields, rest) := by
  cases fields with
  | nil =>
    show value (depth + 1) ('{' :: '}' :: rest) = .ok (.object [], rest)
    rw [value_object, members_nil]
    rfl
  | cons field more =>
    -- A blank stands between the colon and the value.
    have hblank : ∀ f ∈ field :: more, ∀ rest, EndsNumber rest →
        value depth (' ' :: (prettyAt (spaces (n + 2)) f.2 ++ rest)) = .ok (f.2, rest) :=
      fun f hf rest hrest => (value_space depth _).trans (hread f hf rest hrest)
    have hmembers := members_printed (n := n + 2) (m := n) hblank rest
    rw [prettyAt_object_cons, List.cons_append, value_object, List.append_assoc,
      List.singleton_append, hmembers, Except.map, ofPairs_of_nodup hdistinct]

/-- **A printed value is read back**, and nothing of what stands behind it is taken. -/
theorem value_prettyAt {depth : Nat} {v : Json} (h : Fits depth v) (n : Nat) {rest : Text}
    (hrest : EndsNumber rest) : value depth (prettyAt (spaces n) v ++ rest) = .ok (v, rest) := by
  induction h generalizing n rest with
  | null depth =>
    show value depth ('n' :: (['u', 'l', 'l'] ++ rest)) = .ok (.null, rest)
    refine value_of_scalar rfl ?_ depth
    rw [scalar?, if_pos rfl, word_append]
    rfl
  | bool depth b => exact value_bool b depth rest
  | @number depth m low high => exact value_wholeText low high hrest depth
  | string depth text => exact value_quote text depth rest
  | array hfits ih =>
    refine value_prettyAt_array ?_ ?_ rest
    · intro item hitem rest hrest
      exact ih item hitem (n + 2) hrest
    · intro item hitem
      exact startsItem_prettyAt (hfits item hitem) (n + 2)
  | object hdistinct _ ih =>
    refine value_prettyAt_object ?_ hdistinct rest
    intro field hfield rest hrest
    exact ih field hfield (n + 2) hrest

/-! ## What was read fits -/

/-- How a value is read with a reader for what stands in its brackets. -/
theorem valueWith_cases {inner : Option (Reader Json)} {text rest : Text} {v : Json}
    (h : valueWith inner text = .ok (v, rest)) :
    (∃ c behind, scalar? c behind = some (.ok (v, rest))) ∨
      ∃ read front, inner = some read ∧
        ((∃ all, items read front = .ok (all, rest) ∧ v = .array all) ∨
          ∃ all, members read front = .ok (all, rest) ∧ v = .object (ofPairs all)) := by
  unfold valueWith at h
  split at h
  · cases h
  · next c behind _ =>
    split at h
    · next found hfound => exact Or.inl ⟨c, behind, h ▸ hfound⟩
    · right
      unfold deeper at h
      split at h
      · split at h
        · cases h
        · next read =>
          obtain ⟨⟨all, last⟩, hall, hv⟩ := Outcome.map_eq_ok_iff.mp h
          obtain ⟨rfl, rfl⟩ := Prod.mk.inj hv
          exact ⟨read, behind, rfl, Or.inl ⟨all, hall, rfl⟩⟩
      · split at h
        · split at h
          · cases h
          · next read =>
            obtain ⟨⟨all, last⟩, hall, hv⟩ := Outcome.map_eq_ok_iff.mp h
            obtain ⟨rfl, rfl⟩ := Prod.mk.inj hv
            exact ⟨read, behind, rfl, Or.inr ⟨all, hall, rfl⟩⟩
        · cases h

/-- No scalar is a list or an object. -/
theorem ne_of_scalar {c : Char} {rest behind : Text} {v : Json}
    (h : scalar? c rest = some (.ok (v, behind))) :
    (∀ items, v ≠ .array items) ∧ ∀ fields, v ≠ .object fields := by
  unfold scalar? at h
  repeat' split at h
  all_goals first
    | obtain ⟨found, -, hv⟩ := Outcome.map_eq_ok_iff.mp (Option.some.inj h)
      obtain ⟨rfl, -⟩ := Prod.mk.inj hv
      exact ⟨fun items => nofun, fun fields => nofun⟩
    | cases h

theorem fits_of_scalar {c : Char} {rest behind : Text} {v : Json}
    (h : scalar? c rest = some (.ok (v, behind))) (hv : IsWhole v) (depth : Nat) : Fits depth v := by
  cases hv with
  | null => exact .null depth
  | bool b => exact .bool depth b
  | number low high => exact .number low high
  | string text => exact .string depth text
  | array _ => exact absurd rfl ((ne_of_scalar h).1 _)
  | object _ => exact absurd rfl ((ne_of_scalar h).2 _)

/-- A value that was read has distinct keys, and no more brackets around each other than it may. -/
theorem fits_of_value {depth : Nat} {text rest : Text} {v : Json}
    (h : value depth text = .ok (v, rest)) (hv : IsWhole v) : Fits depth v := by
  induction depth generalizing text rest v with
  | zero =>
    rcases valueWith_cases h with ⟨c, behind, hscalar⟩ | ⟨read, front, hread, -⟩
    · exact fits_of_scalar hscalar hv 0
    · cases hread
  | succ depth ih =>
    rcases valueWith_cases h with ⟨c, behind, hscalar⟩ | ⟨read, front, hread, hall⟩
    · exact fits_of_scalar hscalar hv (depth + 1)
    obtain rfl : value depth = read := Option.some.inj hread
    rcases hall with ⟨all, hall, rfl⟩ | ⟨all, hall, rfl⟩
    · cases hv with
      | array hwhole =>
        refine .array fun item hitem => ?_
        obtain ⟨_, _, hfound⟩ := exists_read_of_mem_items hall hitem
        exact ih hfound (hwhole item hitem)
    · cases hv with
      | object hwhole =>
        obtain ⟨hdistinct, hsubset⟩ := nodup_ofPairs all
        refine .object hdistinct fun field hfield => ?_
        obtain ⟨_, _, hfound⟩ := exists_read_of_mem_members hall (hsubset hfield)
        exact ih hfound (hwhole field hfield)

/-! ## Texts -/

theorem fits_of_parse {text : Text} {v : Json} (h : parse text = .ok v) (hv : IsWhole v) :
    Fits depthLimit v := by
  obtain ⟨⟨found, rest⟩, hfound, h⟩ := Outcome.bind_eq_ok_iff.mp h
  dsimp only at h
  split at h
  · obtain rfl := Except.ok.inj h
    exact fits_of_value hfound hv
  · cases h

theorem parse_of_fits {v : Json} (h : Fits depthLimit v) (n : Nat) :
    parse (prettyAt (spaces n) v) = .ok v := by
  have hread := value_prettyAt h n endsNumber_nil
  rw [List.append_nil] at hread
  rw [parse, whole, hread]
  rfl

/-- **A value of whole numbers is read back from its printed text**, wherever it is printed. -/
theorem parse_prettyAt {text : Text} {v : Json} (h : parse text = .ok v) (hv : IsWhole v) (n : Nat) :
    parse (prettyAt (spaces n) v) = .ok v :=
  parse_of_fits (fits_of_parse h hv) n

end AmdBundle.Json
