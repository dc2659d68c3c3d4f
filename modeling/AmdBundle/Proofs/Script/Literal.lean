import AmdBundle.Proofs.Json.Lexeme

/-!
# What a string literal denotes

A string of a script is a row of 16 bit units. A literal denotes the units of its characters, where a
backslash begins an escape: a letter for a control character, a code in hexadecimal or octal digits, or
the end of a line, which denotes nothing. A line feed or carriage return of its own cannot stand in a
literal; U+2028 and U+2029 can.

* `units` : the units of a text, which determine the text;
* `readLiteral` : the units of the literal with which a text begins, and the text behind it;
  `denoted?` : what a text denotes that is one literal;
* `readLiteral_scriptQuote`, `isLineEnd_of_mem_scriptQuote` : a text that is quoted for a script denotes
  itself, on one line;
* `denoted?_eq_units_iff` : a text that is merely put between two quotes denotes itself exactly if it
  holds no backslash, no such quote and no end of a line. For each escape has fewer units than the
  characters it is written with.
-/

set_option autoImplicit false

namespace AmdBundle.Script

/-! ## Units -/

/-- The units of a code point: a surrogate pair from 65536 on. -/
def pointUnits (n : Nat) : List Nat :=
  if n < 0x10000 then [n] else [0xD800 + (n - 0x10000) / 0x400, 0xDC00 + (n - 0x10000) % 0x400]

def units (text : Text) : List Nat :=
  text.flatMap fun c => pointUnits c.toNat

@[simp] theorem units_nil : units [] = [] := rfl

@[simp] theorem units_cons (c : Char) (text : Text) :
    units (c :: text) = pointUnits c.toNat ++ units text := List.flatMap_cons

@[simp] theorem units_append (a b : Text) : units (a ++ b) = units a ++ units b :=
  List.flatMap_append

theorem length_pointUnits (n : Nat) :
    (pointUnits n).length = if n < 0x10000 then 1 else 2 := by
  unfold pointUnits
  split <;> rfl

theorem one_le_length_pointUnits (n : Nat) : 1 ≤ (pointUnits n).length := by
  rw [length_pointUnits]
  split <;> omega

theorem length_le_length_units (text : Text) : text.length ≤ (units text).length := by
  induction text with
  | nil => exact Nat.le_refl 0
  | cons c text ih =>
    have hc := one_le_length_pointUnits c.toNat
    rw [units_cons, List.length_append, List.length_cons]
    omega

/-- The units of a character show where they end, since no character is a surrogate. -/
theorem eq_of_pointUnits_append {c d : Char} {a b : List Nat}
    (h : pointUnits c.toNat ++ a = pointUnits d.toNat ++ b) : c = d ∧ a = b := by
  have hc : c.toNat < 0xD800 ∨ 0xDFFF < c.toNat ∧ c.toNat < 0x110000 := c.valid
  have hd : d.toNat < 0xD800 ∨ 0xDFFF < d.toNat ∧ d.toNat < 0x110000 := d.valid
  suffices c.toNat = d.toNat ∧ a = b from ⟨Char.toNat_inj.mp this.1, this.2⟩
  unfold pointUnits at h
  split at h <;> split at h <;> simp only [List.cons_append, List.nil_append, List.cons.injEq] at h
  · exact h
  · omega
  · omega
  · exact ⟨by omega, h.2.2⟩

theorem units_injective {a b : Text} (h : units a = units b) : a = b := by
  induction a generalizing b with
  | nil =>
    have hb := length_le_length_units b
    rw [← h] at hb
    exact (List.eq_nil_of_length_eq_zero (Nat.le_zero.mp hb)).symm
  | cons c a ih =>
    cases b with
    | nil =>
      have ha := length_le_length_units (c :: a)
      rw [h] at ha
      exact absurd ha (by simp)
    | cons d b =>
      obtain ⟨rfl, hmore⟩ := eq_of_pointUnits_append (by simpa using h)
      rw [ih hmore]

/-! ## Literals -/

/-- The value of hexadecimal digits behind those of value `n`. -/
def hexNumber (n : Nat) : Text → Option Nat
  | [] => some n
  | c :: rest => (Json.hexValue c).bind fun d => hexNumber (16 * n + d) rest

def isOctal (c : Char) : Bool :=
  '0' ≤ c && c ≤ '7'

/-- The octal digits behind the first one of a code, which stays below 256. -/
def octalDigits (c : Char) (rest : Text) : Text :=
  (rest.take (if c ≤ '3' then 2 else 1)).takeWhile isOctal

def octalNumber (digits : Text) : Nat :=
  digits.foldl (fun n d => 8 * n + (d.toNat - 48)) 0

/-- The code point of an escape that is one character, by default the character itself. -/
def letterPoint (c : Char) : Nat :=
  if c = 'b' then 8
  else if c = 't' then 9
  else if c = 'n' then 10
  else if c = 'v' then 11
  else if c = 'f' then 12
  else if c = 'r' then 13
  else c.toNat

/-- The text behind a line feed, if it begins with one. -/
def dropFeed : Text → Text
  | '\n' :: rest => rest
  | text => text

def isLineEnd (c : Char) : Bool :=
  c == '\n' || c == '\r' || c == '\u2028' || c == '\u2029'

/-- A code point between braces, the first of which was read. -/
def readBraced (text : Text) : Option (List Nat × Text) :=
  match text.takeWhile (· ≠ '}'), text.dropWhile (· ≠ '}') with
  | digit :: digits, _ :: rest =>
    (hexNumber 0 (digit :: digits)).bind fun n =>
      if n < 0x110000 then some (pointUnits n, rest) else none
  | _, _ => none

/-- A code of so many hexadecimal digits. -/
def readCode (count : Nat) (text : Text) : Option (List Nat × Text) :=
  if text.length < count then none
  else (hexNumber 0 (text.take count)).map fun n => ([n], text.drop count)

/-- The units of an escape and the text behind it, from the character behind its backslash on. -/
def readEscape : Text → Option (List Nat × Text)
  | [] => none
  | c :: rest =>
    if c = 'x' then readCode 2 rest
    else if c = 'u' then
      match rest with
      | '{' :: braced => readBraced braced
      | _ => readCode 4 rest
    else if isOctal c then
      let digits := octalDigits c rest
      some ([octalNumber (c :: digits)], rest.drop digits.length)
    else if isLineEnd c then some ([], if c = '\r' then dropFeed rest else rest)
    else some (pointUnits (letterPoint c), rest)

/-- The units up to the closing quote and the text behind it; `fuel` is more than the length of the
text. -/
def readBody (quote : Char) : Nat → Text → Option (List Nat × Text)
  | 0, _ => none
  | _ + 1, [] => none
  | fuel + 1, c :: rest =>
    if c = quote then some ([], rest)
    else if c = '\\' then
      (readEscape rest).bind fun escape =>
        (readBody quote fuel escape.2).map fun more => (escape.1 ++ more.1, more.2)
    else if c = '\n' ∨ c = '\r' then none
    else (readBody quote fuel rest).map fun more => (pointUnits c.toNat ++ more.1, more.2)

def readLiteral : Text → Option (List Nat × Text)
  | [] => none
  | c :: rest => if c = '"' ∨ c = '\'' then readBody c (rest.length + 1) rest else none

/-- What a text denotes that is one literal. -/
def denoted? (text : Text) : Option (List Nat) :=
  match readLiteral text with
  | some (found, []) => some found
  | _ => none

example : denoted? "'\\x41\\102\\u0043\\u\x7b1F600\x7d\\\n\\q'".toList =
    some [65, 66, 67, 0xD83D, 0xDE00, 113] := by decide +kernel

/-! ## Texts between quotes -/

/-- The text can stand between such quotes as it is. -/
def IsPlain (quote : Char) (text : Text) : Prop :=
  ∀ c ∈ text, c ≠ quote ∧ c ≠ '\\' ∧ c ≠ '\n' ∧ c ≠ '\r'

theorem readBody_plain {quote : Char} {text : Text} (h : IsPlain quote text) {fuel : Nat}
    (hfuel : text.length < fuel) (rest : Text) :
    readBody quote fuel (text ++ quote :: rest) = some (units text, rest) := by
  induction text generalizing fuel with
  | nil =>
    obtain ⟨fuel, rfl⟩ := Nat.exists_eq_succ_of_ne_zero (Nat.ne_of_gt hfuel)
    simp [readBody]
  | cons c text ih =>
    obtain ⟨fuel, rfl⟩ := Nat.exists_eq_succ_of_ne_zero (Nat.ne_of_gt (Nat.zero_lt_of_lt hfuel))
    obtain ⟨⟨hquote, hbackslash, hfeed, hreturn⟩, hmore⟩ := List.forall_mem_cons.mp h
    have hrest := ih hmore (Nat.lt_of_succ_lt_succ hfuel)
    simp [readBody, hquote, hbackslash, hfeed, hreturn, hrest]

theorem length_units_drop_le (n : Nat) (text : Text) :
    (units (text.drop n)).length ≤ (units text).length := by
  have hsplit := congrArg (fun t => (units t).length) (List.take_append_drop n text)
  simp only [units_append, List.length_append] at hsplit
  omega

theorem length_le_of_readCode {count : Nat} {text rest : Text} {found : List Nat}
    (hcount : 1 ≤ count) (h : readCode count text = some (found, rest)) :
    found.length + (units rest).length ≤ (units text).length := by
  unfold readCode at h
  split at h
  · cases h
  · next hlength =>
    obtain ⟨n, -, hn⟩ := Option.map_eq_some_iff.mp h
    obtain ⟨rfl, rfl⟩ := Prod.mk.inj hn
    have hsplit := congrArg (fun t => (units t).length) (List.take_append_drop count text)
    have htake := length_le_length_units (text.take count)
    simp only [units_append, List.length_append, List.length_take, List.length_singleton] at *
    omega

theorem length_le_of_readBraced {text rest : Text} {found : List Nat}
    (h : readBraced text = some (found, rest)) :
    found.length + (units rest).length ≤ (units text).length := by
  have hsplit := congrArg (fun t => (units t).length)
    (List.takeWhile_append_dropWhile (p := (· ≠ '}')) (l := text))
  unfold readBraced at h
  split at h
  · next digit digits brace behind hdigits hbehind =>
    obtain ⟨n, -, hn⟩ := Option.bind_eq_some_iff.mp h
    split at hn
    · obtain ⟨rfl, rfl⟩ := Prod.mk.inj (Option.some.inj hn)
      have hdigit := one_le_length_pointUnits digit.toNat
      have hbrace := one_le_length_pointUnits brace.toNat
      have htwo : (pointUnits n).length ≤ 2 := by
        rw [length_pointUnits]
        split <;> omega
      rw [hdigits, hbehind] at hsplit
      simp only [units_append, units_cons, List.length_append] at hsplit
      omega
    · cases hn
  · cases h

theorem length_pointUnits_letterPoint_le (c : Char) :
    (pointUnits (letterPoint c)).length ≤ (pointUnits c.toNat).length := by
  have hc := one_le_length_pointUnits c.toNat
  unfold letterPoint
  repeat' split
  all_goals first | exact hc | exact Nat.le_refl _

theorem length_units_dropFeed_le (text : Text) :
    (units (dropFeed text)).length ≤ (units text).length := by
  unfold dropFeed
  split
  · simp
  · exact Nat.le_refl _

/-- An escape has no more units than what stands behind its backslash. -/
theorem length_le_of_readEscape {text rest : Text} {found : List Nat}
    (h : readEscape text = some (found, rest)) :
    found.length + (units rest).length ≤ (units text).length := by
  cases text with
  | nil => cases h
  | cons c text =>
    have hc := one_le_length_pointUnits c.toNat
    rw [units_cons, List.length_append]
    simp only [readEscape] at h
    split at h
    · have := length_le_of_readCode (by decide) h
      omega
    split at h
    · split at h
      · next braced =>
        have := length_le_of_readBraced h
        rw [units_cons, List.length_append]
        omega
      · have := length_le_of_readCode (by decide) h
        omega
    split at h
    · obtain ⟨rfl, rfl⟩ := Prod.mk.inj (Option.some.inj h)
      have := length_units_drop_le (octalDigits c text).length text
      rw [List.length_singleton]
      omega
    split at h
    · obtain ⟨rfl, rfl⟩ := Prod.mk.inj (Option.some.inj h)
      have := length_units_dropFeed_le text
      rw [List.length_nil]
      split <;> omega
    · obtain ⟨rfl, rfl⟩ := Prod.mk.inj (Option.some.inj h)
      have := length_pointUnits_letterPoint_le c
      omega

/-- What stands before the closing quote is plain and denotes itself, or it has fewer units than it
is written with. -/
theorem plain_or_shorter_of_readBody {quote : Char} {fuel : Nat} {text rest : Text}
    {found : List Nat} (h : readBody quote fuel text = some (found, rest)) :
    (∃ body, text = body ++ quote :: rest ∧ IsPlain quote body ∧ found = units body) ∨
      found.length + (units (quote :: rest)).length < (units text).length := by
  induction fuel generalizing text found with
  | zero => cases h
  | succ fuel ih =>
    cases text with
    | nil => cases h
    | cons c text =>
      have hc := one_le_length_pointUnits c.toNat
      rw [units_cons c, List.length_append]
      simp only [readBody] at h
      split at h
      · next hquote =>
        obtain ⟨rfl, rfl⟩ := Prod.mk.inj (Option.some.inj h)
        exact Or.inl ⟨[], by rw [hquote, List.nil_append], by simp [IsPlain], rfl⟩
      next hquote =>
      split at h
      · right
        obtain ⟨escape, hescape, h⟩ := Option.bind_eq_some_iff.mp h
        obtain ⟨more, hmore, hfound⟩ := Option.map_eq_some_iff.mp h
        obtain ⟨rfl, rfl⟩ := Prod.mk.inj hfound
        -- The backslash itself denotes nothing.
        have hle := length_le_of_readEscape hescape
        rw [List.length_append]
        rcases ih hmore with ⟨body, hbody, -, hunits⟩ | hlt
        · rw [hbody, units_append, List.length_append, ← hunits] at hle
          omega
        · omega
      next hbackslash =>
      split at h
      · cases h
      next hline =>
      obtain ⟨more, hmore, hfound⟩ := Option.map_eq_some_iff.mp h
      obtain ⟨rfl, rfl⟩ := Prod.mk.inj hfound
      rcases ih hmore with ⟨body, rfl, hplain, hunits⟩ | hlt
      · obtain ⟨hfeed, hreturn⟩ := not_or.mp hline
        exact Or.inl ⟨c :: body, rfl, List.forall_mem_cons.mpr
          ⟨⟨hquote, hbackslash, hfeed, hreturn⟩, hplain⟩, by rw [units_cons, hunits]⟩
      · right
        rw [List.length_append]
        omega

/-- **A text between two quotes.** It denotes itself exactly if it can stand there as it is. -/
theorem denoted?_eq_units_iff {quote : Char} (hquote : quote = '"' ∨ quote = '\'') {text : Text} :
    denoted? (quote :: (text ++ [quote])) = some (units text) ↔ IsPlain quote text := by
  have hread : readLiteral (quote :: (text ++ [quote])) =
      readBody quote (text.length + 2) (text ++ [quote]) := by
    simp [readLiteral, hquote]
  constructor
  · intro h
    unfold denoted? at h
    split at h
    · next found hfound =>
      obtain rfl := Option.some.inj h
      rw [hread] at hfound
      rcases plain_or_shorter_of_readBody hfound with ⟨body, hbody, hplain, -⟩ | hlt
      · rwa [List.append_cancel_right hbody]
      · simp at hlt
    · cases h
  · intro hplain
    have hbody : readBody quote (text.length + 2) (text ++ [quote]) = some (units text, []) :=
      readBody_plain hplain (by omega) []
    simp [denoted?, hread, hbody]

/-! ## Quoted texts -/

theorem readBody_escape (escape : Text) {found : List Nat} {rest : Text} (fuel : Nat)
    (h : readEscape (escape ++ rest) = some (found, rest)) :
    readBody '"' (fuel + 1) ('\\' :: escape ++ rest) =
      (readBody '"' fuel rest).map fun more => (found ++ more.1, more.2) := by
  simp [readBody, h]

/-- An escape of four hexadecimal digits. -/
theorem readEscape_code {a b c d : Char} {n : Nat} (hbrace : a ≠ '{')
    (hnumber : hexNumber 0 [a, b, c, d] = some n) (rest : Text) :
    readEscape (['u', a, b, c, d] ++ rest) = some ([n], rest) := by
  simp [readEscape, readCode, hnumber, hbrace]

theorem hexNumber_control {n : Nat} (h : n < 32) :
    hexNumber 0 ['0', '0', Text.hexDigit (n / 16), Text.hexDigit (n % 16)] = some n := by
  have hzero : Json.hexValue '0' = some 0 := by decide
  have hsum : 16 * (n / 16) + n % 16 = n := by omega
  simp [hexNumber, hzero, Json.hexValue_hexDigit (n / 16) (by omega),
    Json.hexValue_hexDigit (n % 16) (by omega), hsum]

/-- One character of a quoted text. -/
theorem readBody_scriptEscape (c : Char) (fuel : Nat) (rest : Text) :
    readBody '"' (fuel + 1) (Text.scriptEscape c ++ rest) =
      (readBody '"' fuel rest).map fun more => (pointUnits c.toNat ++ more.1, more.2) := by
  unfold Text.scriptEscape
  split
  · next hc => subst hc; exact readBody_escape _ fuel (readEscape_code (by decide) rfl rest)
  split
  · next hc => subst hc; exact readBody_escape _ fuel (readEscape_code (by decide) rfl rest)
  unfold Text.jsonEscape
  split
  · next hc => subst hc; exact readBody_escape ['"'] fuel rfl
  split
  · next hc => subst hc; exact readBody_escape ['\\'] fuel rfl
  split
  · next hc => subst hc; exact readBody_escape ['n'] fuel rfl
  split
  · next hc => subst hc; exact readBody_escape ['r'] fuel rfl
  split
  · next hc => subst hc; exact readBody_escape ['t'] fuel rfl
  split
  · next hc => rw [hc]; exact readBody_escape ['b'] fuel rfl
  split
  · next hc => rw [hc]; exact readBody_escape ['f'] fuel rfl
  split
  · next hc =>
    have hunits : pointUnits c.toNat = [c.toNat] := if_pos (by omega)
    rw [hunits]
    exact readBody_escape _ fuel (readEscape_code (by decide) (hexNumber_control hc) rest)
  · next hquote hbackslash hfeed hreturn _ _ _ _ =>
    simp [readBody, hquote, hbackslash, hfeed, hreturn]

theorem readBody_flatMap_scriptEscape {text : Text} {fuel : Nat} (hfuel : text.length < fuel)
    (rest : Text) :
    readBody '"' fuel (text.flatMap Text.scriptEscape ++ '"' :: rest) = some (units text, rest) := by
  induction text generalizing fuel with
  | nil =>
    obtain ⟨fuel, rfl⟩ := Nat.exists_eq_succ_of_ne_zero (Nat.ne_of_gt hfuel)
    simp [readBody]
  | cons c text ih =>
    obtain ⟨fuel, rfl⟩ := Nat.exists_eq_succ_of_ne_zero (Nat.ne_of_gt (Nat.zero_lt_of_lt hfuel))
    rw [List.flatMap_cons, List.append_assoc, readBody_scriptEscape,
      ih (Nat.lt_of_succ_lt_succ hfuel)]
    rfl

/-- **A quoted text denotes itself.** -/
theorem readLiteral_scriptQuote (text rest : Text) :
    readLiteral (Text.scriptQuote text ++ rest) = some (units text, rest) := by
  have hlength := Lists.length_le_length_flatMap Text.scriptEscape_ne_nil text
  have hfuel : text.length < (text.flatMap Text.scriptEscape ++ '"' :: rest).length + 1 := by
    rw [List.length_append]
    omega
  simpa [Text.scriptQuote, readLiteral] using readBody_flatMap_scriptEscape hfuel rest

theorem isLineEnd_hexDigit : ∀ n < 16, isLineEnd (Text.hexDigit n) = false := by decide

theorem any_isLineEnd_scriptEscape (c : Char) : (Text.scriptEscape c).any isLineEnd = false := by
  unfold Text.scriptEscape
  split
  · decide
  split
  · decide
  next hline hparagraph =>
  unfold Text.jsonEscape
  repeat' split
  all_goals try decide
  · next hc =>
    have hhigh := isLineEnd_hexDigit (c.toNat / 16) (by omega)
    have hlow := isLineEnd_hexDigit (c.toNat % 16) (by omega)
    have hhead : ['\\', 'u', '0', '0'].any isLineEnd = false := by decide
    simp only [Text.controlEscape, List.any_cons, List.any_nil, hhigh, hlow] at hhead ⊢
    exact hhead
  · next hfeed hreturn _ _ _ _ =>
    simp [isLineEnd, hline, hparagraph, hfeed, hreturn]

/-- A quoted text stands on one line. -/
theorem isLineEnd_of_mem_scriptQuote {text : Text} {c : Char} (hc : c ∈ Text.scriptQuote text) :
    isLineEnd c = false := by
  rcases List.mem_cons.mp hc with rfl | hc
  · decide
  rcases List.mem_append.mp hc with hc | hc
  · obtain ⟨d, -, hd⟩ := List.mem_flatMap.mp hc
    simpa using List.any_eq_false.mp (any_isLineEnd_scriptEscape d) c hd
  · obtain rfl := List.mem_singleton.mp hc
    decide

end AmdBundle.Script
