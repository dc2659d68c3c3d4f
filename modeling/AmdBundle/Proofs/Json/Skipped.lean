import AmdBundle.Proofs.Json.RoundTrip
import AmdBundle.Proofs.Json.Skip

/-!
# What is read can be skipped

Where a value is read, skipping it ends at the same place. A reader that looks into a list or an object
only needs to know that of the values inside.

* `skipNumber_of_read`, `skipString_of_read` : numbers and strings;
* `Skipped` : a value at the front of a text and the text behind it;
* `ListBody.skipped`, `ObjectBody.skipped` : lists and objects, from the values in them;
* `objectKeys` : the keys of an object, whatever their values are; `objectKeys_of_body` : what they are.
-/

set_option autoImplicit false

namespace AmdBundle.Json

/-! ## Numbers -/

theorem rest_of_scaledNumber {positive : Bool} {significand : Nat} {exponent : Int} {text rest : Text}
    {x : Json.Number} (h : scaledNumber positive significand exponent text = .ok (x, rest)) :
    rest = text := by
  unfold scaledNumber at h
  split at h
  · exact (Prod.mk.inj (Except.ok.inj h)).2.symm
  · cases h

theorem rest_of_exponentValue {value : Nat} {text : Text} :
    (∀ {n : Nat} {rest : Text}, exponentValue value text = .ok (n, rest) →
      rest = text.dropWhile Char.isDigit) ∧
    ∀ {rest : Text}, exponentValue value text = .error rest →
      rest.dropWhile Char.isDigit = text.dropWhile Char.isDigit := by
  induction text generalizing value with
  | nil => simp [exponentValue]
  | cons c text ih =>
    rw [exponentValue]
    by_cases hc : c.isDigit = true
    · rw [if_neg (by simp [hc]), List.dropWhile_cons_of_pos hc]
      split
      · exact ⟨nofun, fun h => by rw [Except.error.inj h]⟩
      · exact ih
    · rw [if_pos (by simp [hc]), List.dropWhile_cons_of_neg hc]
      exact ⟨fun h => (Prod.mk.inj (Except.ok.inj h)).2.symm, nofun⟩

theorem skipExponent_of_read {positive : Bool} {significand : Nat} {exponent : Int} {text rest : Text}
    {x : Json.Number} (h : readExponent positive significand exponent text = .ok (x, rest)) :
    skipExponent text = .ok rest := by
  unfold readExponent at h
  unfold skipExponent
  split at h
  next up digits hsign =>
  rw [hsign]
  cases digits with
  | nil => cases h
  | cons c more =>
    dsimp only at h ⊢
    by_cases hc : c.isDigit = true
    · rw [if_neg (by simp [hc])] at h
      rw [if_pos hc]
      cases hvalue : exponentValue (digitValue c) more with
      | ok found =>
        rw [hvalue] at h
        rw [rest_of_scaledNumber h, rest_of_exponentValue.1 hvalue]
      | error left =>
        rw [hvalue] at h
        dsimp only at h
        split at h
        · cases h
        · rw [← (Prod.mk.inj (Except.ok.inj h)).2, rest_of_exponentValue.2 hvalue]
    · rw [if_pos (by simp [hc])] at h
      cases h

theorem skipTail_of_read {positive : Bool} {significand : Nat} {exponent : Int} {text rest : Text}
    {x : Json.Number} (h : readTail positive significand exponent text = .ok (x, rest)) :
    skipTail text = .ok rest := by
  unfold readTail at h
  split at h
  · exact skipExponent_of_read h
  · exact skipExponent_of_read h
  · next hlower hupper =>
    have hskip : skipTail text = .ok text := by
      unfold skipTail
      split
      · exact absurd rfl (hlower _)
      · exact absurd rfl (hupper _)
      · rfl
    rw [hskip, rest_of_scaledNumber h]

theorem skipFraction_of_read {positive : Bool} {significand : Nat} {exponent : Int} {text rest : Text}
    {x : Json.Number} (h : readFraction positive significand exponent text = .ok (x, rest)) :
    skipFraction text = .ok rest := by
  unfold readFraction at h
  unfold skipFraction
  by_cases hempty : (text.takeWhile Char.isDigit).isEmpty = true
  · simp only [hempty, if_true] at h
    cases h
  · simp only [hempty, if_false, Bool.false_eq_true] at h ⊢
    exact skipTail_of_read h

theorem skipAfterWhole_of_read {positive : Bool} {significand lost : Nat} {text rest : Text}
    {x : Json.Number} (h : readAfterWhole positive significand lost text = .ok (x, rest)) :
    skipAfterWhole text = .ok rest := by
  unfold readAfterWhole at h
  unfold skipAfterWhole
  split at h
  · exact skipFraction_of_read h
  · exact skipExponent_of_read h
  · exact skipExponent_of_read h
  · next hpoint hlower hupper =>
    split
    · exact absurd rfl (hpoint _)
    have hrest : rest = text := by
      split at h
      · unfold wholeNumber at h
        split at h
        · exact (Prod.mk.inj (Except.ok.inj h)).2.symm
        split at h
        · exact rest_of_scaledNumber h
        · exact (Prod.mk.inj (Except.ok.inj h)).2.symm
      · exact rest_of_scaledNumber h
    unfold skipTail
    split
    · exact absurd rfl (hlower _)
    · exact absurd rfl (hupper _)
    · rw [hrest]

theorem skipNumber_of_read {positive : Bool} {text rest : Text} {x : Json.Number}
    (h : readNumber positive text = .ok (x, rest)) : skipNumber text = .ok rest := by
  unfold readNumber at h
  split at h
  · cases h
  · next text =>
    rw [skipNumber, if_pos rfl]
    cases text with
    | nil => exact skipAfterWhole_of_read h
    | cons c more =>
      dsimp only at h
      split at h
      · cases h
      · next hc =>
        rw [if_pos (by simp [hc])]
        exact skipAfterWhole_of_read h
  · next c text hzero =>
    rw [skipNumber, if_neg hzero]
    split at h
    · next hc =>
      rw [if_pos hc]
      have hafter := skipAfterWhole_of_read h
      rwa [List.dropWhile_cons_of_pos hc] at hafter
    · cases h

/-! ## Strings -/

theorem skipEscape_of_readQuad {text rest : Text} {n : Nat} (h : readQuad text = .ok (n, rest)) :
    skipEscape ('u' :: text) = .ok rest := by
  rw [skipEscape, if_pos rfl, h]
  rfl

/-- An escape is skipped, and one that is two halves of a pair is skipped in two. -/
theorem skipEscape_of_read {text rest : Text} {c : Char} (h : readEscape text = .ok (c, rest)) :
    skipEscape text = .ok rest ∨
      ∃ more, skipEscape text = .ok ('\\' :: more) ∧ skipEscape more = .ok rest := by
  cases text with
  | nil => cases h
  | cons d text =>
    rw [readEscape] at h
    cases hshort : shortEscape d with
    | some e =>
      rw [hshort] at h
      have hu : shortEscape 'u' = none := by decide
      have hne : d ≠ 'u' := by
        rintro rfl
        rw [hu] at hshort
        cases hshort
      rw [skipEscape, if_neg hne, hshort, ← (Prod.mk.inj (Except.ok.inj h)).2]
      exact .inl rfl
    | none =>
      rw [hshort] at h
      dsimp only at h
      split at h
      · cases h
      next hu =>
      obtain rfl : d = 'u' := Decidable.not_not.mp hu
      obtain ⟨⟨n, behind⟩, hquad, h⟩ := Outcome.bind_eq_ok_iff.mp h
      have hskip := skipEscape_of_readQuad hquad
      dsimp only at h
      split at h
      · cases h
      split at h
      · unfold readTrailing at h
        split at h
        · cases h
        split at h
        · cases h
        next hbackslash =>
        split at h
        · cases h
        split at h
        · cases h
        next hu' =>
        obtain ⟨⟨m, last⟩, hquad', h⟩ := Outcome.bind_eq_ok_iff.mp h
        dsimp only at h
        split at h
        · obtain ⟨-, rfl⟩ := Prod.mk.inj (Except.ok.inj h)
          rw [Decidable.not_not.mp hbackslash, Decidable.not_not.mp hu'] at hskip
          exact .inr ⟨_, hskip, skipEscape_of_readQuad hquad'⟩
        · cases h
      · obtain ⟨-, rfl⟩ := Prod.mk.inj (Except.ok.inj h)
        exact .inl hskip

theorem skipStringFrom_of_read {fuel : Nat} {text rest s : Text}
    (h : stringBody fuel text = .ok (s, rest)) {fuel' : Nat} (hfuel : text.length < fuel') :
    skipStringFrom fuel' text = .ok rest := by
  induction fuel generalizing text s fuel' with
  | zero => cases h
  | succ fuel ih =>
    obtain ⟨fuel', rfl⟩ := Nat.exists_eq_succ_of_ne_zero (Nat.ne_zero_of_lt hfuel)
    cases text with
    | nil => cases h
    | cons c text =>
      rw [stringBody] at h
      rw [List.length_cons] at hfuel
      rw [skipStringFrom]
      split at h
      · next hquote => rw [if_pos hquote, (Prod.mk.inj (Except.ok.inj h)).2]
      next hquote =>
      rw [if_neg hquote]
      split at h
      · next hbackslash =>
        obtain ⟨⟨d, behind⟩, hescape, h⟩ := Outcome.bind_eq_ok_iff.mp h
        obtain ⟨⟨more, last⟩, hmore, h⟩ := Outcome.bind_eq_ok_iff.mp h
        obtain ⟨-, rfl⟩ := Prod.mk.inj (Except.ok.inj h)
        rw [if_pos hbackslash]
        rcases skipEscape_of_read hescape with hskip | ⟨second, hskip, hskip'⟩
        · have hlt := length_of_skipEscape hskip
          rw [hskip, Outcome.bind_ok]
          exact ih hmore (by omega)
        · have hlt := length_of_skipEscape hskip
          have hlt' := length_of_skipEscape hskip'
          rw [List.length_cons] at hlt
          obtain ⟨fuel', rfl⟩ := Nat.exists_eq_succ_of_ne_zero (n := fuel') (by omega)
          rw [hskip, Outcome.bind_ok, skipStringFrom, if_neg (by decide), if_pos rfl, hskip', Outcome.bind_ok]
          exact ih hmore (by omega)
      next hbackslash =>
      rw [if_neg hbackslash]
      split at h
      · cases h
      · next hcontrol =>
        obtain ⟨⟨more, last⟩, hmore, h⟩ := Outcome.bind_eq_ok_iff.mp h
        obtain ⟨-, rfl⟩ := Prod.mk.inj (Except.ok.inj h)
        rw [if_neg hcontrol]
        exact ih hmore (by omega)

theorem skipString_of_read {text rest s : Text} (h : readString text = .ok (s, rest)) :
    skipString text = .ok rest :=
  skipStringFrom_of_read h (Nat.lt_succ_self _)

/-! ## Lists and objects -/

/-- The text begins with a value, behind which the rest stands. -/
def Skipped (text rest : Text) : Prop :=
  ∀ fuel, text.length < fuel → skipFrom fuel text = .ok rest

theorem Skipped.length_le {text rest : Text} (h : Skipped text rest) : rest.length ≤ text.length :=
  shrinks_skipFrom _ (h (text.length + 1) (Nat.lt_succ_self _))

theorem Skipped.of_skip {text rest : Text} (h : skip text = .ok rest) : Skipped text rest :=
  fun _ hfuel => extends_skipFrom hfuel h

theorem Skipped.of_skipSpace {text rest : Text} (h : Skipped (skipSpace text) rest) : Skipped text rest := by
  intro fuel hfuel
  obtain ⟨fuel, rfl⟩ := Nat.exists_eq_succ_of_ne_zero (Nat.ne_zero_of_lt hfuel)
  rw [← skipFrom_skipSpace]
  exact h _ (Nat.lt_of_le_of_lt (length_skipSpace_le text) hfuel)

/-- The text behind an item of a list, up to the end of the list. -/
inductive ListTail : Text → Text → Prop where
  | close {text rest : Text} (bracket : skipSpace text = ']' :: rest) : ListTail text rest
  | item {text front behind rest : Text} (comma : skipSpace text = ',' :: front)
      (item : Skipped front behind) (more : ListTail behind rest) : ListTail text rest

theorem ListTail.skipItems {text rest : Text} (h : ListTail text rest) {fuel : Nat}
    {front : Text} (hfuel : text.length < fuel) (hfront : skipFrom fuel front = .ok text) {count : Nat}
    (hcount : text.length < count) : skipItems (skipFrom fuel) count front = .ok rest := by
  induction h generalizing front count with
  | @close text rest bracket =>
    obtain ⟨count, rfl⟩ := Nat.exists_eq_succ_of_ne_zero (Nat.ne_zero_of_lt hcount)
    rw [Json.skipItems, hfront, Outcome.bind_ok, bracket]
    rfl
  | @item text next behind rest comma item _ ih =>
    obtain ⟨count, rfl⟩ := Nat.exists_eq_succ_of_ne_zero (Nat.ne_zero_of_lt hcount)
    have hspace := length_skipSpace_le text
    have hle := item.length_le
    rw [comma, List.length_cons] at hspace
    rw [Json.skipItems, hfront, Outcome.bind_ok, comma]
    exact ih (by omega) (item fuel (by omega)) (by omega)

/-- The text behind the bracket of a list, up to the end of the list. -/
inductive ListBody : Text → Text → Prop where
  | empty {text rest : Text} (bracket : skipSpace text = ']' :: rest) : ListBody text rest
  | item {text front behind rest : Text} {c : Char} (start : skipSpace text = c :: front) (hc : c ≠ ']')
      (item : Skipped (c :: front) behind) (more : ListTail behind rest) : ListBody text rest

theorem ListBody.skipped {text front rest : Text} (hbracket : skipSpace text = '[' :: front)
    (h : ListBody front rest) : Skipped text rest := by
  intro fuel hfuel
  obtain ⟨fuel, rfl⟩ := Nat.exists_eq_succ_of_ne_zero (Nat.ne_zero_of_lt hfuel)
  have hlength := length_skipSpace_le text
  have hspace := length_skipSpace_le front
  rw [hbracket, List.length_cons] at hlength
  rw [skipFrom, hbracket]
  show skipList (skipFrom fuel) front = .ok rest
  unfold skipList
  cases h with
  | empty bracket =>
    rw [bracket]
    rfl
  | item start hc item more =>
    have hle := item.length_le
    rw [List.length_cons] at hle
    rw [start, List.length_cons] at hspace
    rw [start]
    dsimp only
    rw [if_neg hc]
    exact more.skipItems (by omega) (item fuel (by rw [List.length_cons]; omega)) (by omega)

/-- The text begins with a member of an object, behind which the rest stands. -/
inductive StartsMember : Text → Text → Text → Prop where
  | mk {text front behindKey front' behind key : Text} (quote : skipSpace text = '"' :: front)
      (string : readString front = .ok (key, behindKey)) (colon : colon behindKey = .ok front')
      (value : Skipped front' behind) : StartsMember text key behind

/-- The text behind a member of an object, the keys of the further members, and the text behind the
object. -/
inductive MembersTail : Text → List Text → Text → Prop where
  | close {text rest : Text} (brace : skipSpace text = '}' :: rest) : MembersTail text [] rest
  | member {text front behind rest key : Text} {keys : List Text}
      (comma : skipSpace text = ',' :: front) (member : StartsMember front key behind)
      (more : MembersTail behind keys rest) : MembersTail text (key :: keys) rest

/-- The text behind the brace of an object, the keys of all members, and the text behind the object. -/
inductive ObjectBody : Text → List Text → Text → Prop where
  | empty {text rest : Text} (brace : skipSpace text = '}' :: rest) : ObjectBody text [] rest
  | member {text behind rest key : Text} {keys : List Text} (member : StartsMember text key behind)
      (more : MembersTail behind keys rest) : ObjectBody text (key :: keys) rest

theorem StartsMember.exists_skipKey {text key behind : Text} (h : StartsMember text key behind) :
    ∃ front, skipKey text = .ok front ∧ Skipped front behind := by
  obtain ⟨quote, string, hcolon, value⟩ := h
  refine ⟨_, ?_, value⟩
  rw [skipKey, quote]
  dsimp only
  rw [if_pos rfl, skipString_of_read string, Outcome.bind_ok, hcolon]

theorem StartsMember.length_lt {text key behind : Text} (h : StartsMember text key behind) :
    behind.length < text.length := by
  obtain ⟨quote, string, hcolon, value⟩ := h
  have hspace := length_skipSpace_le text
  have hstring := shrinks_skipString (skipString_of_read string)
  have hle := shrinks_colon hcolon
  have hvalue := value.length_le
  rw [quote, List.length_cons] at hspace
  omega

theorem MembersTail.skipMembers {text rest : Text} {keys : List Text} (h : MembersTail text keys rest)
    {fuel : Nat} (hfuel : text.length < fuel) {front front' : Text} (hkey : skipKey front = .ok front')
    (hvalue : skipFrom fuel front' = .ok text) {count : Nat} (hcount : text.length < count) :
    skipMembers (skipFrom fuel) count front = .ok rest := by
  induction h generalizing front front' count with
  | @close text rest brace =>
    obtain ⟨count, rfl⟩ := Nat.exists_eq_succ_of_ne_zero (Nat.ne_zero_of_lt hcount)
    rw [Json.skipMembers, hkey, Outcome.bind_ok, hvalue, Outcome.bind_ok, brace]
    rfl
  | @member text next behind rest key keys comma member _ ih =>
    obtain ⟨count, rfl⟩ := Nat.exists_eq_succ_of_ne_zero (Nat.ne_zero_of_lt hcount)
    obtain ⟨next', hkey', hvalue'⟩ := member.exists_skipKey
    have hspace := length_skipSpace_le text
    have hlt := member.length_lt
    have hle' := shrinks_skipKey hkey'
    rw [comma, List.length_cons] at hspace
    rw [Json.skipMembers, hkey, Outcome.bind_ok, hvalue, Outcome.bind_ok, comma]
    exact ih (by omega) hkey' (hvalue' fuel (by omega)) (by omega)

theorem ObjectBody.skipped {text body rest : Text} {keys : List Text}
    (hbrace : skipSpace text = '{' :: body) (h : ObjectBody body keys rest) : Skipped text rest := by
  intro fuel hfuel
  obtain ⟨fuel, rfl⟩ := Nat.exists_eq_succ_of_ne_zero (Nat.ne_zero_of_lt hfuel)
  have hlength := length_skipSpace_le text
  rw [hbrace, List.length_cons] at hlength
  rw [skipFrom, hbrace]
  show skipObject (skipFrom fuel) body = .ok rest
  unfold skipObject
  cases h with
  | empty brace =>
    rw [brace]
    rfl
  | member member more =>
    obtain ⟨front, hkey, hvalue⟩ := member.exists_skipKey
    have hlt := member.length_lt
    have hle' := shrinks_skipKey hkey
    obtain ⟨quote, -, -, -⟩ := member
    have hspace := length_skipSpace_le body
    have hskip : skipKey (skipSpace body) = .ok front := by
      rw [← hkey, skipKey, skipKey, skipSpace_skipSpace]
    rw [quote] at hskip
    rw [quote]
    dsimp only
    rw [if_neg (by decide)]
    exact more.skipMembers (by omega) hskip (hvalue fuel (by omega)) (by omega)

/-! ## Single values -/

section
variable {text front rest : Text}

theorem skipped_of_word {c : Char} {w : Text} (hstart : skipSpace text = c :: front)
    (h : word w front = .ok rest) (hc : c = 'n' ∧ w = ['u', 'l', 'l'] ∨ c = 't' ∧ w = ['r', 'u', 'e'] ∨
      c = 'f' ∧ w = ['a', 'l', 's', 'e']) : Skipped text rest := by
  intro fuel hfuel
  obtain ⟨fuel, rfl⟩ := Nat.exists_eq_succ_of_ne_zero (Nat.ne_zero_of_lt hfuel)
  rw [skipFrom, hstart]
  rcases hc with ⟨rfl, rfl⟩ | ⟨rfl, rfl⟩ | ⟨rfl, rfl⟩ <;> exact h

theorem skipped_of_readString {s : Text} (hstart : skipSpace text = '"' :: front)
    (h : readString front = .ok (s, rest)) : Skipped text rest := by
  intro fuel hfuel
  obtain ⟨fuel, rfl⟩ := Nat.exists_eq_succ_of_ne_zero (Nat.ne_zero_of_lt hfuel)
  rw [skipFrom, hstart]
  exact skipString_of_read h

theorem skipped_of_negative {x : Json.Number} (hstart : skipSpace text = '-' :: front)
    (h : readNumber false front = .ok (x, rest)) : Skipped text rest := by
  intro fuel hfuel
  obtain ⟨fuel, rfl⟩ := Nat.exists_eq_succ_of_ne_zero (Nat.ne_zero_of_lt hfuel)
  rw [skipFrom, hstart]
  exact skipNumber_of_read h

theorem skipped_of_digits {c : Char} {x : Json.Number} (hstart : skipSpace text = c :: front)
    (hc : c.isDigit = true) (h : readNumber true (c :: front) = .ok (x, rest)) : Skipped text rest := by
  have hne (d : Char) (hd : d.isDigit = false) : c ≠ d := ne_of_isDigit hc hd
  intro fuel hfuel
  obtain ⟨fuel, rfl⟩ := Nat.exists_eq_succ_of_ne_zero (Nat.ne_zero_of_lt hfuel)
  rw [skipFrom, hstart]
  simp only [hne 'n' rfl, hne 't' rfl, hne 'f' rfl, hne '"' rfl, hne '-' rfl, hc, if_true, if_false]
  exact skipNumber_of_read h

end

/-! ## The keys of an object -/

/-- A value that is passed over. -/
def skipValue : Reader Unit := fun text =>
  (skip text).map fun rest => ((), rest)

/-- The keys of the object that a text is, whatever their values are. -/
def objectKeys (text : Text) : Except Fault (List Text) :=
  match skipSpace text with
  | '{' :: rest => (whole (members skipValue) rest).map fun all => all.map Prod.fst
  | text => .error (.looking text .noValue)

theorem skipValue_of_skipped {text rest : Text} (h : Skipped text rest) :
    skipValue text = .ok ((), rest) := by
  have hskip : skip text = .ok rest := h (text.length + 1) (Nat.lt_succ_self _)
  rw [skipValue, hskip]
  rfl

theorem MembersTail.membersFrom {text rest : Text} {keys : List Text} (h : MembersTail text keys rest)
    {fuel : Nat} (hfuel : text.length < fuel) :
    membersFrom skipValue fuel false text = .ok (keys.map (·, ()), '}' :: rest) := by
  induction h generalizing fuel with
  | @close text rest brace =>
    obtain ⟨fuel, rfl⟩ := Nat.exists_eq_succ_of_ne_zero (Nat.ne_zero_of_lt hfuel)
    rw [Json.membersFrom, nextKey, brace]
    rfl
  | @member text next behind rest key keys comma member _ ih =>
    obtain ⟨fuel, rfl⟩ := Nat.exists_eq_succ_of_ne_zero (Nat.ne_zero_of_lt hfuel)
    have hspace := length_skipSpace_le text
    have hlt := member.length_lt
    rw [comma, List.length_cons] at hspace
    obtain ⟨quote, string, hcolon, value⟩ := member
    have hmore : Json.membersFrom skipValue fuel false behind = .ok (keys.map (·, ()), '}' :: rest) :=
      ih (by omega)
    rw [Json.membersFrom, nextKey, comma]
    simp [quote, string, hcolon, skipValue_of_skipped value, hmore]

theorem ObjectBody.members {text rest : Text} {keys : List Text} (h : ObjectBody text keys rest) :
    members skipValue text = .ok (keys.map (·, ()), rest) := by
  have hclose : closeObject ('}' :: rest) = .ok rest := by
    simp [closeObject, skipSpace_cons (c := '}') rfl]
  suffices hall : membersFrom skipValue (text.length + 1) true text =
      .ok (keys.map (·, ()), '}' :: rest) by
    simp only [Json.members, hall, hclose, Outcome.bind_ok]
  cases h with
  | empty brace =>
    rw [membersFrom, nextKey, brace]
    rfl
  | member member more =>
    have hlt := member.length_lt
    obtain ⟨quote, string, hcolon, value⟩ := member
    have hmore := more.membersFrom hlt
    rw [membersFrom, nextKey, quote]
    simp [string, hcolon, skipValue_of_skipped value, hmore]

theorem objectKeys_of_body {text front last : Text} {keys : List Text}
    (hbrace : skipSpace text = '{' :: front) (hbody : ObjectBody front keys last)
    (hend : skipSpace last = []) : objectKeys text = .ok keys := by
  have hkeys : (keys.map (·, ())).map Prod.fst = keys := by
    rw [List.map_map]
    exact List.map_id keys
  rw [objectKeys, hbrace]
  simp only [whole, hbody.members, Outcome.bind_ok, hend, Except.map, hkeys]

/-- Values of any kind are passed over, in text with blanks. -/
example : objectKeys " \x7b\"a\": [1, \x7b\"c\": 2\x7d], \"b\" : null \x7d ".toList =
    .ok [['a'], ['b']] := by decide +kernel

end AmdBundle.Json
