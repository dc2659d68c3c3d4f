import AmdBundle.Proofs.Header.Reading
import AmdBundle.Resource.Import

/-!
# The imports of a stylesheet

* `Clause` : an import as it is written; `Clause.Starts` : does a text begin with it;
* `readImport_eq_some_iff` : an import is read exactly where one is written;
* `Scanned` : the imports of a text, each found where the text first begins with one, and what is left
  without them; `splitImports_eq_iff` : this is what `splitImports` finds.
-/

set_option autoImplicit false

namespace AmdBundle.Stylesheet
open Header (Blanks skipBlank_blanks skipBlank_cons exists_blanks_append_skipBlank)
open Text (skipBlank)

/-! ## One import -/

/-- The first word of an import. -/
def importWord : Text := "@import".toList

/-- `@import`, a path between quotes, and a semicolon at will, with white space between them. -/
structure Clause where
  gap : Blanks
  opening : Char
  target : Text
  closing : Char
  behind : Blanks
  /-- The white space behind the semicolon, if there is one. -/
  ending : Option Blanks
  opening_quote : isQuote opening = true
  closing_quote : isQuote closing = true
  target_ne_nil : target ≠ []
  target_plain : ∀ c ∈ target, isQuote c = false

namespace Clause

/-- The semicolon with the white space behind it. -/
def endingText : Option Blanks → Text
  | none => []
  | some b => ';' :: b.text

def text (k : Clause) : Text :=
  importWord ++ (k.gap.text ++ k.opening :: (k.target ++ k.closing ::
    (k.behind.text ++ endingText k.ending)))

/-- The text begins with the import, and the rest behind it with nothing that could belong to it. -/
structure Starts (k : Clause) (text rest : Text) : Prop where
  split : text = k.text ++ rest
  blank : ∀ c ∈ rest.head?, Text.isBlank c = false
  semicolon : k.ending = none → ∀ c ∈ rest.head?, c ≠ ';'

end Clause

theorem skipBlank_of_head {text : Text} (h : ∀ c ∈ text.head?, Text.isBlank c = false) :
    skipBlank text = text := by
  cases text with
  | nil => rfl
  | cons c text => exact skipBlank_cons (h c rfl) text

theorem isBlank_head_skipBlank (text : Text) :
    ∀ c ∈ (skipBlank text).head?, Text.isBlank c = false := by
  intro c hc
  have hfirst := List.head?_dropWhile_not Text.isBlank text
  rw [show (text.dropWhile Text.isBlank).head? = some c from hc] at hfirst
  exact hfirst

theorem not_isBlank_quote {c : Char} (h : isQuote c = true) : Text.isBlank c = false := by
  simp only [isQuote, Bool.or_eq_true, beq_iff_eq] at h
  rcases h with rfl | rfl <;> decide

theorem readQuote_eq_some_iff {text rest : Text} :
    readQuote text = some rest ↔ ∃ c, isQuote c = true ∧ text = c :: rest := by
  cases text with
  | nil => simp [readQuote]
  | cons c text =>
    by_cases hc : isQuote c = true
    · simp [readQuote, hc]
    · simp [readQuote, hc]

/-- What stands behind the closing quote of an import, up to the rest. -/
theorem skip_ending {behind : Blanks} {ending : Option Blanks} {rest : Text}
    (hblank : ∀ c ∈ rest.head?, Text.isBlank c = false)
    (hsemicolon : ending = none → ∀ c ∈ rest.head?, c ≠ ';') :
    skipBlank (dropSemicolon (skipBlank (behind.text ++ (Clause.endingText ending ++ rest)))) =
      rest := by
  rw [skipBlank_blanks]
  cases ending with
  | none =>
    have hrest : dropSemicolon rest = rest := by
      cases rest with
      | nil => rfl
      | cons c rest =>
        have hc := hsemicolon rfl c rfl
        unfold dropSemicolon
        split
        · next heq => exact absurd (List.cons.inj heq).1 hc
        · rfl
    rw [Clause.endingText, List.nil_append, skipBlank_of_head hblank, hrest, skipBlank_of_head hblank]
  | some b =>
    have hmark : skipBlank (';' :: (b.text ++ rest)) = ';' :: (b.text ++ rest) :=
      skipBlank_cons (by decide) _
    rw [Clause.endingText, List.cons_append, hmark, dropSemicolon, skipBlank_blanks,
      skipBlank_of_head hblank]

theorem exists_ending (text : Text) : ∃ (behind : Blanks) (ending : Option Blanks),
    let rest := skipBlank (dropSemicolon (skipBlank text))
    text = behind.text ++ (Clause.endingText ending ++ rest) ∧
      (ending = none → ∀ c ∈ rest.head?, c ≠ ';') := by
  obtain ⟨behind, hbehind⟩ := exists_blanks_append_skipBlank text
  have hhead := isBlank_head_skipBlank text
  cases hrest : skipBlank text with
  | nil => exact ⟨behind, none, by rw [hrest] at hbehind; exact hbehind, by simp [dropSemicolon, skipBlank, Text.trimStart]⟩
  | cons c rest =>
    rw [hrest] at hbehind hhead
    by_cases hc : c = ';'
    · subst hc
      obtain ⟨b, hb⟩ := exists_blanks_append_skipBlank rest
      refine ⟨behind, some b, ?_, by simp⟩
      show text = behind.text ++ (';' :: b.text ++ skipBlank rest)
      rw [List.cons_append]
      exact hb ▸ hbehind
    · have hdrop : dropSemicolon (c :: rest) = c :: rest := by
        unfold dropSemicolon
        split
        · next heq => exact absurd (List.cons.inj heq).1 hc
        · rfl
      refine ⟨behind, none, ?_, ?_⟩
      · rw [hdrop, skipBlank_of_head hhead]
        exact hbehind
      · rw [hdrop, skipBlank_of_head hhead]
        simpa using hc

theorem readImport_eq_some {text target rest : Text} :
    readImport text = some (target, rest) ↔
      ∃ behindWord inside behind, Text.dropWord importWord text = some behindWord ∧
        readQuote (skipBlank behindWord) = some inside ∧
        readQuote (inside.dropWhile fun c => !isQuote c) = some behind ∧
        (inside.takeWhile fun c => !isQuote c) = target ∧ target ≠ [] ∧
        skipBlank (dropSemicolon (skipBlank behind)) = rest := by
  simp only [readImport, Option.bind_eq_bind, Option.bind_eq_some_iff, Option.ite_none_left_eq_some,
    List.isEmpty_iff, Option.some.injEq, Prod.mk.injEq]
  constructor
  · rintro ⟨a, ha, b, hb, c, hc, hne, rfl, hrest⟩
    exact ⟨a, b, c, ha, hb, hc, rfl, hne, hrest⟩
  · rintro ⟨a, b, c, ha, hb, hc, rfl, hne, hrest⟩
    exact ⟨a, ha, b, hb, c, hc, hne, rfl, hrest⟩

theorem Clause.Starts.readImport {k : Clause} {text rest : Text} (h : k.Starts text rest) :
    readImport text = some (k.target, rest) := by
  obtain ⟨rfl, hblank, hsemicolon⟩ := h
  let behind := k.behind.text ++ (endingText k.ending ++ rest)
  have hplain : ∀ c ∈ k.target, (!isQuote c) = true := fun c hc => by simp [k.target_plain c hc]
  have hclosing : (!isQuote k.closing) = false := by simp [k.closing_quote]
  refine readImport_eq_some.mpr ⟨k.gap.text ++ k.opening :: (k.target ++ k.closing :: behind),
    k.target ++ k.closing :: behind, behind, ?_, ?_, ?_, ?_, k.target_ne_nil, ?_⟩
  · rw [Text.dropWord_eq_some_iff]
    simp [Clause.text, behind]
  · rw [skipBlank_blanks, skipBlank_cons (not_isBlank_quote k.opening_quote)]
    exact readQuote_eq_some_iff.mpr ⟨k.opening, k.opening_quote, rfl⟩
  · rw [List.dropWhile_append_of_pos hplain, List.dropWhile_cons_of_neg (by simp [hclosing])]
    exact readQuote_eq_some_iff.mpr ⟨k.closing, k.closing_quote, rfl⟩
  · rw [List.takeWhile_append_of_pos hplain, List.takeWhile_cons_of_neg (by simp [hclosing]),
      List.append_nil]
  · exact skip_ending hblank hsemicolon

/-- **An import is read exactly where one is written.** -/
theorem readImport_eq_some_iff {text target rest : Text} :
    readImport text = some (target, rest) ↔ ∃ k : Clause, k.target = target ∧ k.Starts text rest := by
  constructor
  · intro h
    obtain ⟨behindWord, inside, behind, hword, hopening, hclosing, rfl, hne, rfl⟩ :=
      readImport_eq_some.mp h
    obtain rfl := Text.dropWord_eq_some_iff.mp hword
    obtain ⟨gap, hgap⟩ := exists_blanks_append_skipBlank behindWord
    obtain ⟨opening, hquote, hinside⟩ := readQuote_eq_some_iff.mp hopening
    obtain ⟨closing, hquote', hbehind⟩ := readQuote_eq_some_iff.mp hclosing
    obtain ⟨blanks, ending, hending, hsemicolon⟩ := exists_ending behind
    refine ⟨⟨gap, opening, inside.takeWhile fun c => !isQuote c, closing, blanks, ending, hquote,
      hquote', hne, fun c hc => by simpa using List.mem_takeWhile_imp hc⟩, rfl, ?_,
      isBlank_head_skipBlank _, hsemicolon⟩
    have hsplit : inside = (inside.takeWhile fun c => !isQuote c) ++ closing :: behind := by
      rw [← hbehind, List.takeWhile_append_dropWhile]
    rw [hinside] at hgap
    rw [hgap]
    simp only [Clause.text, List.append_assoc, List.cons_append]
    rw [← hending, ← hsplit]
  · rintro ⟨k, rfl, h⟩
    exact h.readImport

/-! ## All imports -/

/-- The imports of a text and what is left of it without them. An import is taken where the text first
begins with one; any other character is left. -/
inductive Scanned : Text → List Text → Text → Prop where
  | nil : Scanned [] [] []
  | keep {c : Char} {text kept : Text} {targets : List Text}
      (none : ∀ (k : Clause) (rest : Text), ¬ k.Starts (c :: text) rest)
      (more : Scanned text targets kept) : Scanned (c :: text) targets (c :: kept)
  | take {k : Clause} {text rest kept : Text} {targets : List Text} (starts : k.Starts text rest)
      (more : Scanned rest targets kept) : Scanned text (k.target :: targets) kept

theorem Clause.Starts.length_lt {k : Clause} {text rest : Text} (h : k.Starts text rest) :
    rest.length < text.length := by
  rw [h.split]
  simp [Clause.text]
  omega

theorem readImport_eq_none_iff {text : Text} :
    readImport text = none ↔ ∀ (k : Clause) (rest : Text), ¬ k.Starts text rest := by
  rw [Option.eq_none_iff_forall_ne_some]
  constructor
  · intro h k rest hstarts
    exact h _ hstarts.readImport
  · rintro h ⟨target, rest⟩ hread
    obtain ⟨k, -, hstarts⟩ := readImport_eq_some_iff.mp hread
    exact h k rest hstarts

theorem scanned_splitImportsFrom {fuel : Nat} {text : Text} (h : text.length < fuel) :
    Scanned text (splitImportsFrom fuel text).1 (splitImportsFrom fuel text).2 := by
  induction fuel generalizing text with
  | zero => omega
  | succ fuel ih =>
    cases text with
    | nil => exact .nil
    | cons c text =>
      rw [splitImportsFrom]
      split
      · next target rest hread =>
        obtain ⟨k, rfl, hstarts⟩ := readImport_eq_some_iff.mp hread
        have hlt := hstarts.length_lt
        exact .take hstarts (ih (by omega))
      · next hread =>
        rw [List.length_cons] at h
        exact .keep (readImport_eq_none_iff.mp hread) (ih (by omega))

theorem Scanned.splitImportsFrom {text kept : Text} {targets : List Text}
    (h : Scanned text targets kept) {fuel : Nat} (hfuel : text.length < fuel) :
    splitImportsFrom fuel text = (targets, kept) := by
  induction h generalizing fuel with
  | nil =>
    cases fuel with
    | zero => omega
    | succ fuel => rfl
  | @keep c text kept targets none _ ih =>
    cases fuel with
    | zero => omega
    | succ fuel =>
      rw [List.length_cons] at hfuel
      rw [Stylesheet.splitImportsFrom, readImport_eq_none_iff.mpr none, ih (by omega)]
  | @take k text rest kept targets starts _ ih =>
    have hlt := starts.length_lt
    cases fuel with
    | zero => omega
    | succ fuel =>
      cases text with
      | nil => simp at hlt
      | cons c text =>
        rw [Stylesheet.splitImportsFrom, starts.readImport]
        simp only [ih (show rest.length < fuel by omega)]

/-- **The imports of a text.** -/
theorem splitImports_eq_iff {text kept : Text} {targets : List Text} :
    splitImports text = (targets, kept) ↔ Scanned text targets kept := by
  constructor
  · intro h
    have := scanned_splitImportsFrom (Nat.lt_succ_self text.length)
    rwa [show Stylesheet.splitImportsFrom _ text = (targets, kept) from h] at this
  · exact fun h => h.splitImportsFrom (Nat.lt_succ_self _)

end AmdBundle.Stylesheet
