import AmdBundle.Proofs.Header.Shape
import AmdBundle.Proofs.Outcome
import AmdBundle.Proofs.Text.Lines
import Mathlib.Data.List.DropRight
import Mathlib.Data.List.TakeWhile

/-!
# Reading a header follows its grammar

`read_eq_ok_iff` : a header is read from a text exactly if the text starts with a derivation of it,
and the places of its literals count the characters of the text before them.

Every reader has one lemma that says what it takes off the front of a text: `skipBlank` white space
(`skipBlank_blanks`, `exists_blanks_append_skipBlank`), `readMark` a mark, `readWord` a word, `literalBody` and
`readLiteral` a literal, `readDependencies` and `readList` a list. White space begins with no
character that a mark, a word or a literal begins with, so the white space of a derivation is all of
the white space that is skipped.
-/

set_option autoImplicit false

namespace AmdBundle.Header
open Text (skipBlank)

/-! ## White space -/

theorem isBlank_eq_true_iff {c : Char} : Text.isBlank c = true ↔
    (9 ≤ c.toNat ∧ c.toNat ≤ 13) ∨ c.toNat = 32 ∨ c.toNat = 133 ∨ c.toNat = 160 ∨ c.toNat = 5760 ∨
      (8192 ≤ c.toNat ∧ c.toNat ≤ 8202) ∨ (8232 ≤ c.toNat ∧ c.toNat ≤ 8233) ∨ c.toNat = 8239 ∨
      c.toNat = 8287 ∨ c.toNat = 12288 := by
  simp only [Text.isBlank, Text.inRanges, Text.blank, List.any_cons, List.any_nil, Bool.or_eq_true,
    Bool.and_eq_true, decide_eq_true_eq, Bool.or_false]
  omega

/-- The code points of white space, one by one. -/
def blankPoints : List Nat :=
  [9, 10, 11, 12, 13, 32, 133, 160, 5760, 8192, 8193, 8194, 8195, 8196, 8197, 8198, 8199, 8200, 8201,
    8202, 8232, 8233, 8239, 8287, 12288]

theorem toNat_mem_blankPoints {c : Char} (h : Text.isBlank c = true) : c.toNat ∈ blankPoints := by
  rw [isBlank_eq_true_iff] at h
  simp only [blankPoints, List.mem_cons, List.not_mem_nil, or_false]
  omega

theorem isNameChar_of_isBlank {c : Char} (h : Text.isBlank c = true) : isNameChar c = false := by
  have hall : ∀ n ∈ blankPoints, isNameChar (Char.ofNat n) = false := by decide +kernel
  have := hall _ (toNat_mem_blankPoints h)
  rwa [Char.ofNat_toNat] at this

theorem skipBlank_blanks (b : Blanks) (text : Text) : skipBlank (b.text ++ text) = skipBlank text :=
  List.dropWhile_append_of_pos b.blank

theorem skipBlank_cons {c : Char} (hc : Text.isBlank c = false) (text : Text) :
    skipBlank (c :: text) = c :: text := by
  rw [skipBlank, Text.trimStart, List.dropWhile_cons_of_neg (by simp [hc])]

/-- Every text begins with the white space that is skipped. -/
theorem exists_blanks_append_skipBlank (text : Text) :
    ∃ b : Blanks, text = b.text ++ skipBlank text :=
  ⟨⟨text.takeWhile Text.isBlank, fun _ hc => List.mem_takeWhile_imp hc⟩,
    List.takeWhile_append_dropWhile.symm⟩

/-! ## Marks and words -/

theorem readMark_eq_some_iff {c : Char} {text rest : Text} :
    readMark c text = some rest ↔ text = c :: rest := by
  cases text with
  | nil => simp [readMark]
  | cons d text =>
    by_cases h : d = c
    · simp [readMark, h]
    · simp [readMark, h]

theorem readMark_cons_ne {c d : Char} (h : d ≠ c) (text : Text) : readMark c (d :: text) = none := by
  rw [readMark, if_neg h]

theorem exists_blanks_of_readMark {c : Char} {text rest : Text}
    (h : readMark c (skipBlank text) = some rest) : ∃ b : Blanks, text = b.text ++ c :: rest := by
  rw [← readMark_eq_some_iff.mp h]
  exact exists_blanks_append_skipBlank text

theorem readWord_eq_some_iff {word text rest : Text} :
    readWord word text = some rest ↔
      text = word ++ rest ∧ ∀ c ∈ rest.head?, isNameChar c = false := by
  rw [readWord]
  split
  · next h =>
    have hne : ¬ text = word ++ rest := fun he => by
      rw [Text.dropWord_eq_some_iff.mpr he] at h
      cases h
    simp [hne]
  · next h =>
    rw [Text.dropWord_eq_some_iff.mp h]
    simp only [Option.some.injEq, List.append_cancel_left_eq]
    constructor
    · rintro rfl
      simp
    · exact fun h => h.1
  · next c tail h =>
    rw [Text.dropWord_eq_some_iff.mp h, List.append_cancel_left_eq]
    by_cases hc : isNameChar c = true
    · simp only [hc, if_true]
      constructor
      · intro h
        cases h
      · rintro ⟨rfl, h⟩
        simp [hc] at h
    · rw [if_neg hc, Option.some.injEq]
      constructor
      · rintro rfl
        simpa using hc
      · exact fun h => h.1

/-! ## Literals -/

theorem Quoted.quote_ne_backslash (q : Quoted) : q.quote ≠ '\\' := by
  rcases q.quote_eq with h | h <;> rw [h] <;> decide

theorem Quoted.quote_ne_feed (q : Quoted) : q.quote ≠ '\n' := by
  rcases q.quote_eq with h | h <;> rw [h] <;> decide

theorem Quoted.not_isBlank_quote (q : Quoted) : Text.isBlank q.quote = false := by
  rcases q.quote_eq with h | h <;> rw [h] <;> decide

theorem literalBody_append {quote : Char} {content : Text} (hquote : quote ≠ '\\')
    (hfeed : quote ≠ '\n') (h : Inner quote content) (rest : Text) :
    literalBody quote (content ++ quote :: rest) = some (content, rest) := by
  induction h with
  | nil => simp [literalBody, hquote, hfeed]
  | plain backslash feed other _ ih => simp [literalBody, backslash, feed, other, ih]
  | escaped c _ ih => simp [literalBody, ih]

theorem eq_of_literalBody {quote : Char} {text content rest : Text}
    (h : literalBody quote text = some (content, rest)) :
    Inner quote content ∧ text = content ++ quote :: rest := by
  fun_induction literalBody quote text generalizing content with
  | case1 => cases h
  | case2 => cases h
  | case3 c tail ih =>
    obtain ⟨⟨inside, rest'⟩, hinside, heq⟩ := Option.map_eq_some_iff.mp h
    obtain ⟨rfl, rfl⟩ := Prod.mk.inj heq
    obtain ⟨hinner, rfl⟩ := ih hinside
    exact ⟨.escaped c hinner, rfl⟩
  | case4 => cases h
  | case5 tail _ _ _ =>
    obtain ⟨rfl, rfl⟩ := Prod.mk.inj (Option.some.inj h)
    exact ⟨.nil, rfl⟩
  | case6 c tail hlast hescape hfeed hquote ih =>
    have hc : c ≠ '\\' := by
      cases tail with
      | nil => exact fun hc => hlast hc rfl
      | cons d tail => exact fun hc => hescape d tail hc rfl
    obtain ⟨⟨inside, rest'⟩, hinside, heq⟩ := Option.map_eq_some_iff.mp h
    obtain ⟨rfl, rfl⟩ := Prod.mk.inj heq
    obtain ⟨hinner, rfl⟩ := ih hinside
    exact ⟨.plain hc hfeed hquote hinner, rfl⟩

theorem readLiteral_quoted (total : Nat) (q : Quoted) (rest : Text) :
    readLiteral total (q.text ++ rest) =
      some (q.place (total - (q.text ++ rest).length), rest) := by
  have hbody := literalBody_append q.quote_ne_backslash q.quote_ne_feed q.inner rest
  simp [Quoted.text, readLiteral, q.quote_eq, hbody, Quoted.place]

theorem eq_of_readLiteral {total : Nat} {text rest : Text} {l : Literal}
    (h : readLiteral total text = some (l, rest)) :
    ∃ q : Quoted, text = q.text ++ rest ∧ l = q.place (total - text.length) := by
  cases text with
  | nil => cases h
  | cons c text =>
    rw [readLiteral] at h
    split_ifs at h with hc
    obtain ⟨⟨content, rest'⟩, hbody, heq⟩ := Option.map_eq_some_iff.mp h
    obtain ⟨rfl, rfl⟩ := Prod.mk.inj heq
    obtain ⟨hinner, rfl⟩ := eq_of_literalBody hbody
    exact ⟨⟨c, content, hc, hinner⟩, by simp [Quoted.text], by simp [Quoted.place]⟩

theorem skipBlank_quoted (q : Quoted) (rest : Text) :
    skipBlank (q.text ++ rest) = q.text ++ rest :=
  skipBlank_cons q.not_isBlank_quote _

theorem skipBlank_mark (m : Mark) (rest : Text) :
    skipBlank (m.char :: rest) = m.char :: rest :=
  skipBlank_cons (by cases m <;> decide) _

/-! ## Lists -/

@[simp] theorem need_some {α : Type} (line : Nat) (expected : Expected) (rest : Text) (a : α) :
    need line expected rest (some a) = .ok a := rfl

theorem need_eq_ok_iff {α : Type} {line : Nat} {expected : Expected} {rest : Text} {o : Option α}
    {a : α} : need line expected rest o = .ok a ↔ o = some a := by
  cases o <;> simp [need]

theorem Listing.tokens_items_cons (first second : Item) (more : List Item) :
    (Listing.items first (second :: more)).tokens =
      first.tokens ++ .mark .comma :: (Listing.items second more).tokens := by
  simp [Listing.tokens]

theorem length_item_text (i : Item) : (spell i.tokens).length =
    i.before.text.length + (i.literal.text.length + i.behind.text.length) := by
  simp [Item.tokens, Token.text]

/-- An item in front of the rest of a text is read with its place. -/
theorem readLiteral_item (i : Item) (rest : Text) (total start : Nat)
    (htotal : total = start + (spell i.tokens ++ rest).length) :
    readLiteral total (skipBlank (spell i.tokens ++ rest)) =
      some (i.literal.place (start + i.before.text.length), i.behind.text ++ rest) := by
  have hstart : total - (i.literal.text ++ (i.behind.text ++ rest)).length =
      start + i.before.text.length := by
    simp only [List.length_append, length_item_text] at htotal ⊢
    omega
  simp only [Item.tokens, spell_cons, spell_nil, Token.text, List.append_nil, List.append_assoc,
    skipBlank_blanks, skipBlank_quoted, readLiteral_quoted, hstart]

theorem readDependencies_items (line : Nat) (first : Item) (more : List Item) (rest : Text)
    (fuel total start : Nat) (hfuel : more.length < fuel)
    (htotal : total = start + (spell (Listing.items first more).tokens ++ rest).length) :
    readDependencies total line fuel (spell (Listing.items first more).tokens ++ rest) =
      .ok (placed start (Listing.items first more).tokens, rest) := by
  induction more generalizing first fuel start with
  | nil =>
    obtain ⟨fuel, rfl⟩ : ∃ k, fuel = k + 1 := ⟨fuel - 1, by omega⟩
    have htext : spell (Listing.items first []).tokens ++ rest =
        spell first.tokens ++ Mark.closing.char :: rest := by
      simp [Listing.tokens, Token.text]
    have hplaced : placed start (Listing.items first []).tokens =
        [first.literal.place (start + first.before.text.length)] := by
      simp [Listing.tokens, Item.tokens]
    have hcomma : readMark ',' (Mark.closing.char :: rest) = none := readMark_cons_ne (by decide) rest
    have hclosing : readMark ']' (Mark.closing.char :: rest) = some rest :=
      readMark_eq_some_iff.mpr rfl
    rw [htext] at htotal ⊢
    rw [readDependencies, readLiteral_item first _ total start htotal]
    simp only [need_some, Outcome.bind_ok, skipBlank_blanks, skipBlank_mark, hcomma, hclosing,
      hplaced]
  | cons second more ih =>
    obtain ⟨fuel, rfl⟩ : ∃ k, fuel = k + 1 := ⟨fuel - 1, by omega⟩
    have htext : spell (Listing.items first (second :: more)).tokens ++ rest =
        spell first.tokens ++
          Mark.comma.char :: (spell (Listing.items second more).tokens ++ rest) := by
      simp [Listing.tokens_items_cons, Token.text]
    have hplaced : placed start (Listing.items first (second :: more)).tokens =
        first.literal.place (start + first.before.text.length) ::
          placed (start + (spell first.tokens).length + 1) (Listing.items second more).tokens := by
      rw [Listing.tokens_items_cons, placed_append]
      simp [Item.tokens]
    have hcomma : ∀ text, readMark ',' (Mark.comma.char :: text) = some text :=
      fun _ => readMark_eq_some_iff.mpr rfl
    rw [htext] at htotal ⊢
    have hmore := ih second fuel (start + (spell first.tokens).length + 1) (by simpa using hfuel)
      (by simp at htotal ⊢; omega)
    rw [readDependencies, readLiteral_item first _ total start htotal]
    simp only [need_some, Outcome.bind_ok, skipBlank_blanks, skipBlank_mark, hcomma, hmore, hplaced]

/-- What is read as a dependency or a name is an item. -/
theorem exists_item_of_readLiteral {total start : Nat} {text rest : Text} {l : Literal}
    (htotal : total = start + text.length) (h : readLiteral total (skipBlank text) = some (l, rest)) :
    ∃ i : Item, text = spell i.tokens ++ skipBlank rest ∧
      l = i.literal.place (start + i.before.text.length) := by
  obtain ⟨q, htext, rfl⟩ := eq_of_readLiteral h
  obtain ⟨before, hbefore⟩ := exists_blanks_append_skipBlank text
  obtain ⟨behind, hbehind⟩ := exists_blanks_append_skipBlank rest
  refine ⟨⟨before, q, behind⟩, ?_, congrArg q.place ?_⟩
  · calc text = before.text ++ (q.text ++ rest) := by rw [← htext, ← hbefore]
      _ = before.text ++ (q.text ++ (behind.text ++ skipBlank rest)) := by rw [← hbehind]
      _ = _ := by simp [Item.tokens, Token.text]
  · have hlength := congrArg List.length hbefore
    rw [List.length_append] at hlength
    show total - (skipBlank text).length = start + before.text.length
    omega

theorem eq_of_readDependencies {line fuel total start : Nat} {text rest : Text}
    {found : List Literal} (htotal : total = start + text.length)
    (h : readDependencies total line fuel text = .ok (found, rest)) :
    ∃ first more, text = spell (Listing.items first more).tokens ++ rest ∧
      found = placed start (Listing.items first more).tokens := by
  induction fuel generalizing text start found with
  | zero => cases h
  | succ fuel ih =>
    rw [readDependencies] at h
    obtain ⟨⟨l, behind⟩, hliteral, h⟩ := Outcome.bind_eq_ok_iff.mp h
    obtain ⟨i, htext, rfl⟩ := exists_item_of_readLiteral htotal (need_eq_ok_iff.mp hliteral)
    dsimp only at h
    split at h
    · next tail hcomma =>
      rw [readMark_eq_some_iff.mp hcomma] at htext
      obtain ⟨⟨others, rest'⟩, hothers, h⟩ := Outcome.bind_eq_ok_iff.mp h
      obtain ⟨rfl, rfl⟩ := Prod.mk.inj (Except.ok.inj h)
      have htail : total = start + (spell i.tokens).length + 1 + tail.length := by
        rw [htotal, htext, List.length_append, List.length_cons]
        omega
      obtain ⟨second, more, rfl, rfl⟩ := ih htail hothers
      refine ⟨i, second :: more, ?_, ?_⟩
      · simp [htext, Listing.tokens_items_cons, Token.text, Mark.char]
      · rw [Listing.tokens_items_cons, placed_append]
        simp [Item.tokens]
    · obtain ⟨rest', hclosing, h⟩ := Outcome.bind_eq_ok_iff.mp h
      rw [readMark_eq_some_iff.mp (need_eq_ok_iff.mp hclosing)] at htext
      obtain ⟨rfl, rfl⟩ := Prod.mk.inj (Except.ok.inj h)
      exact ⟨i, [], by simp [htext, Listing.tokens, Token.text, Mark.char],
        by simp [Listing.tokens, Item.tokens]⟩

/-! ## The list behind its bracket -/

theorem readDependencies_skipBlank (total line fuel : Nat) (text : Text) :
    readDependencies total line (fuel + 1) (skipBlank text) =
      readDependencies total line (fuel + 1) text := by
  have hidem : skipBlank (skipBlank text) = skipBlank text := List.dropWhile_idempotent ..
  rw [readDependencies, readDependencies, hidem]

theorem length_le_spell_items (more : List Item) :
    more.length ≤ (spell (more.flatMap fun i => .mark .comma :: i.tokens)).length := by
  induction more with
  | nil => exact Nat.le_refl 0
  | cons i more ih =>
    simp only [List.flatMap_cons, List.cons_append, spell_cons, spell_append, List.length_append,
      List.length_cons, Token.text]
    omega

theorem readList_listing (line : Nat) (d : Listing) (rest : Text) (total start : Nat)
    (htotal : total = start + (spell d.tokens ++ rest).length) :
    readList total line (spell d.tokens ++ rest) = .ok (placed start d.tokens, rest) := by
  cases d with
  | empty gap =>
    have htext : spell (Listing.empty gap).tokens ++ rest =
        gap.text ++ Mark.closing.char :: rest := by
      simp [Listing.tokens, Token.text]
    have hclosing : readMark ']' (Mark.closing.char :: rest) = some rest :=
      readMark_eq_some_iff.mpr rfl
    simp only [htext, readList, skipBlank_blanks, skipBlank_mark, hclosing]
    simp [Listing.tokens]
  | items first more =>
    have htext : skipBlank (spell (Listing.items first more).tokens ++ rest) =
        first.literal.text ++ (first.behind.text ++
          (spell (more.flatMap fun i => .mark .comma :: i.tokens) ++ ']' :: rest)) := by
      simp only [Listing.tokens, Item.tokens, spell_append, spell_cons, spell_nil, Token.text,
        Mark.char, List.append_assoc, List.cons_append, List.nil_append, skipBlank_blanks,
        skipBlank_quoted]
    have hclosing : readMark ']' (skipBlank (spell (Listing.items first more).tokens ++ rest)) =
        none := by
      rw [htext]
      refine readMark_cons_ne ?_ _
      rcases first.literal.quote_eq with h | h <;> rw [h] <;> decide
    have hfuel : more.length <
        (skipBlank (spell (Listing.items first more).tokens ++ rest)).length + 1 := by
      have := length_le_spell_items more
      simp only [htext, List.length_append]
      omega
    simp only [readList, hclosing]
    rw [readDependencies_skipBlank, readDependencies_items line first more rest _ total start hfuel htotal]

theorem eq_of_readList {line total start : Nat} {text rest : Text} {found : List Literal}
    (htotal : total = start + text.length) (h : readList total line text = .ok (found, rest)) :
    ∃ d : Listing, text = spell d.tokens ++ rest ∧ found = placed start d.tokens := by
  simp only [readList] at h
  split at h
  · next rest' hclosing =>
    obtain ⟨rfl, rfl⟩ := Prod.mk.inj (Except.ok.inj h)
    obtain ⟨gap, rfl⟩ := exists_blanks_of_readMark hclosing
    exact ⟨.empty gap, by simp [Listing.tokens, Token.text, Mark.char], by simp [Listing.tokens]⟩
  · rw [readDependencies_skipBlank] at h
    obtain ⟨first, more, htext, hfound⟩ := eq_of_readDependencies htotal h
    exact ⟨.items first more, htext, hfound⟩

/-! ## Headers -/

theorem Shape.text_append (s : Shape) (rest : Text) :
    s.text ++ rest = defineWord ++ (s.behindDefine.text ++ '(' ::
      (spell s.name.tokens ++ ',' :: (s.beforeList.text ++ '[' ::
        (spell s.dependencies.tokens ++ (s.behindList.text ++ ',' ::
          (s.beforeFunction.text ++ (functionWord ++ rest))))))) := by
  simp only [Shape.text, Shape.tokens, Shape.front, Shape.back, spell_append, spell_cons, spell_nil,
    Token.text, Mark.char, List.append_assoc, List.cons_append, List.nil_append, List.append_nil]

/-- White space and a mark go on no name. -/
theorem head?_blanks_mark (b : Blanks) (m : Mark) (rest : Text) :
    ∀ c ∈ (b.text ++ m.char :: rest).head?, isNameChar c = false := by
  intro c hc
  cases hb : b.text with
  | nil =>
    obtain rfl : m.char = c := by simpa [hb] using hc
    cases m <;> decide
  | cons d more =>
    obtain rfl : d = c := by simpa [hb] using hc
    exact isNameChar_of_isBlank (b.blank d (by simp [hb]))

theorem readMark_blanks (b : Blanks) (m : Mark) (rest : Text) :
    readMark m.char (skipBlank (b.text ++ m.char :: rest)) = some rest := by
  rw [skipBlank_blanks, skipBlank_mark, readMark_eq_some_iff]

theorem skipBlank_function (rest : Text) :
    skipBlank (functionWord ++ rest) = functionWord ++ rest :=
  skipBlank_cons (c := 'f') (by decide) _

theorem read_of_starts {s : Shape} {text : Text} (line : Nat) {total start : Nat}
    (htotal : total = start + text.length) (hs : s.Starts text) :
    read total line text = .ok (s.header line start) := by
  obtain ⟨rest, rfl, hrest⟩ := hs
  rw [Shape.text_append] at htotal ⊢
  have hdefine : ∀ text, readWord "define".toList (defineWord ++ (s.behindDefine.text ++
      '(' :: text)) = some (s.behindDefine.text ++ '(' :: text) :=
    fun text => readWord_eq_some_iff.mpr ⟨rfl, head?_blanks_mark _ .parenthesis text⟩
  have hparenthesis : ∀ text, readMark '(' (skipBlank (s.behindDefine.text ++ '(' :: text)) =
      some text := readMark_blanks _ .parenthesis
  have hname := readLiteral_item s.name (',' :: (s.beforeList.text ++ '[' ::
    (spell s.dependencies.tokens ++ (s.behindList.text ++ ',' ::
      (s.beforeFunction.text ++ (functionWord ++ rest)))))) total
    (start + (defineWord ++ s.behindDefine.text ++ ['(']).length) (by simp at htotal ⊢; omega)
  have hcomma : ∀ b : Blanks, ∀ text, readMark ',' (skipBlank (b.text ++ ',' :: text)) =
      some text := fun b => readMark_blanks b .comma
  have hbracket : ∀ text, readMark '[' (skipBlank (s.beforeList.text ++ '[' :: text)) =
      some text := readMark_blanks _ .bracket
  have hlist := readList_listing line s.dependencies (s.behindList.text ++ ',' ::
    (s.beforeFunction.text ++ (functionWord ++ rest))) total (s.listStart start)
    (by simp [Shape.listStart, Shape.front, Token.text] at htotal ⊢; omega)
  have hfunction : readWord "function".toList (skipBlank (s.beforeFunction.text ++
      (functionWord ++ rest))) = some rest := by
    rw [skipBlank_blanks, skipBlank_function]
    exact readWord_eq_some_iff.mpr ⟨rfl, hrest⟩
  have hstart : s.nameStart start =
      start + (defineWord ++ s.behindDefine.text ++ ['(']).length + s.name.before.text.length := by
    simp [Shape.nameStart_eq]
    omega
  rw [Shape.header, hstart]
  simp only [read, hdefine, hparenthesis, hname, hcomma, hbracket, hlist, hfunction, need_some,
    Outcome.bind_ok]

theorem starts_of_read {line total start : Nat} {text : Text} {h : Header}
    (htotal : total = start + text.length) (hread : read total line text = .ok h) :
    ∃ s : Shape, s.Starts text ∧ h = s.header line start := by
  simp only [read, Outcome.bind_eq_ok_iff, need_eq_ok_iff] at hread
  obtain ⟨t₁, hdefine, t₂, hparenthesis, ⟨name, t₃⟩, hname, t₄, hcomma, t₅, hbracket,
    ⟨dependencies, t₆⟩, hlist, t₇, hcomma', t₈, hfunction, hheader⟩ := hread
  obtain ⟨htext, -⟩ := readWord_eq_some_iff.mp hdefine
  obtain rfl : text = defineWord ++ t₁ := htext
  obtain ⟨b₁, rfl⟩ := exists_blanks_of_readMark hparenthesis
  have htotal₂ : total = start + (defineWord ++ b₁.text ++ ['(']).length + t₂.length := by
    rw [htotal]
    simp
    omega
  obtain ⟨i, hitem, rfl⟩ := exists_item_of_readLiteral htotal₂ hname
  rw [readMark_eq_some_iff.mp hcomma] at hitem
  subst hitem
  obtain ⟨b₂, rfl⟩ := exists_blanks_of_readMark hbracket
  have htotal₅ : total = start + (defineWord ++ b₁.text ++ ['('] ++ spell i.tokens ++ [','] ++
      b₂.text ++ ['[']).length + t₅.length := by
    rw [htotal₂]
    simp
    omega
  obtain ⟨d, rfl, rfl⟩ := eq_of_readList htotal₅ hlist
  obtain ⟨b₃, rfl⟩ := exists_blanks_of_readMark hcomma'
  obtain ⟨hword, hrest⟩ := readWord_eq_some_iff.mp hfunction
  obtain ⟨b₄, hb₄⟩ := exists_blanks_append_skipBlank t₇
  rw [hword] at hb₄
  subst hb₄
  refine ⟨⟨b₁, i, b₂, d, b₃, b₄⟩,
    ⟨t₈, (Shape.text_append ⟨b₁, i, b₂, d, b₃, b₄⟩ t₈).symm, hrest⟩, ?_⟩
  obtain rfl := Except.ok.inj hheader
  have hname : Shape.nameStart ⟨b₁, i, b₂, d, b₃, b₄⟩ start =
      start + (defineWord ++ b₁.text ++ ['(']).length + i.before.text.length := by
    simp [Shape.nameStart]
    omega
  have hlist : Shape.listStart ⟨b₁, i, b₂, d, b₃, b₄⟩ start = start + (defineWord ++ b₁.text ++
      ['('] ++ spell i.tokens ++ [','] ++ b₂.text ++ ['[']).length := by
    simp [Shape.listStart, Shape.front, Token.text]
  rw [Shape.header, hname, hlist]

/-- **A header is read exactly if a derivation of it starts the text.** -/
theorem read_eq_ok_iff {line total start : Nat} {text : Text} {h : Header}
    (htotal : total = start + text.length) :
    read total line text = .ok h ↔ ∃ s : Shape, s.Starts text ∧ h = s.header line start := by
  constructor
  · exact starts_of_read htotal
  · rintro ⟨s, hs, rfl⟩
    exact read_of_starts line htotal hs

end AmdBundle.Header
