import AmdBundle.Proofs.Lists
import AmdBundle.Proofs.Stylesheet.Import
import AmdBundle.Resource.Stylesheet

/-!
# Import statements

A stylesheet is written as comments, import statements and other rules. One pattern finds its imports,
wherever they stand.

* `Statement`, `Kept`, `Part`, `Source` : a stylesheet as it is written, with the paths of its statements
  and the text without them;
* `IsPlain` : the pattern fits every statement whole, and begins nowhere else;
* `Scanned.until_word` : what a scan does up to the next statement; `Scanned.more_or_plain` : it takes
  more than the statements, or leaves more than what stands between them, or the stylesheet is plain;
* `recognised_iff_plain` : the imports that are found and taken out are the statements exactly if the
  stylesheet is plain.
-/

set_option autoImplicit false

namespace AmdBundle.Stylesheet
open Header (Blanks)
open Text (skipBlank)

/-! ## A stylesheet as it is written -/

/-- `@import "path" media;` and the white space behind it. -/
structure Statement where
  gap : Blanks
  quote : Char
  path : Text
  media : Text
  ending : Blanks
  isQuote_quote : isQuote quote = true
  quote_not_mem_path : quote ∉ path
  semicolon_not_mem_media : ';' ∉ media

def Statement.text (s : Statement) : Text :=
  importWord ++ (s.gap.text ++ s.quote :: (s.path ++ s.quote :: (s.media ++ ';' :: s.ending.text)))

/-- A comment ends where it is first closed. -/
structure Comment where
  body : Text
  closed : ¬ "*/".toList <:+: body ++ ['*']

def Comment.text (c : Comment) : Text :=
  "/*".toList ++ (c.body ++ "*/".toList)

/-- What is to be kept. A rule is any text: with its strings, its block and all that stands in it. -/
inductive Kept where
  | comment (c : Comment)
  | rule (text : Text)

def Kept.text : Kept → Text
  | comment c => c.text
  | rule text => text

inductive Part where
  | statement (s : Statement)
  | kept (k : Kept)

namespace Part

def text : Part → Text
  | statement s => s.text
  | kept k => k.text

def path? : Part → Option Text
  | statement s => some s.path
  | kept _ => none

/-- What is left of the part without the statements. -/
def rest : Part → Text
  | statement _ => []
  | kept k => k.text

end Part

/-- All white space behind a statement belongs to it. -/
def IsSpaced : List Part → Prop
  | [] => True
  | .statement _ :: more =>
    (∀ c ∈ (more.flatMap Part.text).head?, Text.isBlank c = false) ∧ IsSpaced more
  | .kept _ :: more => IsSpaced more

structure Source where
  parts : List Part
  spaced : IsSpaced parts

namespace Source

def text (s : Source) : Text :=
  s.parts.flatMap Part.text

def paths (s : Source) : List Text :=
  s.parts.filterMap Part.path?

def rest (s : Source) : Text :=
  s.parts.flatMap Part.rest

end Source

/-! ## Where the pattern fits -/

/-- The pattern fits the whole statement. -/
structure Statement.IsPlain (s : Statement) : Prop where
  path_ne_nil : s.path ≠ []
  path_plain : ∀ c ∈ s.path, isQuote c = false
  media_blank : ∀ c ∈ s.media, Text.isBlank c = true

/-- An import begins within the text, before whatever stands behind it. -/
def OpensIn (text behind : Text) : Prop :=
  ∃ (front back : Text) (c : Char) (k : Clause) (rest : Text), text = front ++ c :: back ∧
    k.Starts (c :: (back ++ behind)) rest

/-- The pattern fits every statement whole, and nothing begins with it in a comment or a rule. -/
def IsPlain : List Part → Prop
  | [] => True
  | .statement s :: more => s.IsPlain ∧ IsPlain more
  | .kept k :: more => ¬ OpensIn k.text (more.flatMap Part.text) ∧ IsPlain more

theorem exists_starts_iff {text : Text} :
    (readImport text).isSome = true ↔ ∃ (k : Clause) (rest : Text), k.Starts text rest := by
  rw [Option.isSome_iff_exists]
  constructor
  · rintro ⟨⟨target, rest⟩, hread⟩
    obtain ⟨k, -, hstarts⟩ := readImport_eq_some_iff.mp hread
    exact ⟨k, rest, hstarts⟩
  · rintro ⟨k, rest, hstarts⟩
    exact ⟨_, hstarts.readImport⟩

theorem not_opensIn_nil (behind : Text) : ¬ OpensIn [] behind := by
  rintro ⟨front, back, c, k, rest, hsplit, -⟩
  simp at hsplit

theorem opensIn_cons_iff {c : Char} {text behind : Text} : OpensIn (c :: text) behind ↔
    (∃ (k : Clause) (rest : Text), k.Starts (c :: (text ++ behind)) rest) ∨ OpensIn text behind := by
  constructor
  · rintro ⟨front, back, d, k, rest, hsplit, hstarts⟩
    cases front with
    | nil =>
      obtain ⟨rfl, rfl⟩ := List.cons.inj hsplit
      exact .inl ⟨k, rest, hstarts⟩
    | cons e front =>
      obtain ⟨-, rfl⟩ := List.cons.inj hsplit
      exact .inr ⟨front, back, d, k, rest, rfl, hstarts⟩
  · rintro (⟨k, rest, hstarts⟩ | ⟨front, back, d, k, rest, rfl, hstarts⟩)
    · exact ⟨[], text, c, k, rest, rfl, hstarts⟩
    · exact ⟨c :: front, back, d, k, rest, rfl, hstarts⟩

theorem opensIn_append {text more behind : Text}
    (h : OpensIn text (more ++ behind) ∨ OpensIn more behind) : OpensIn (text ++ more) behind := by
  rcases h with ⟨front, back, c, k, rest, rfl, hstarts⟩ | ⟨front, back, c, k, rest, rfl, hstarts⟩
  · refine ⟨front, back ++ more, c, k, rest, by simp, ?_⟩
    rwa [List.append_assoc]
  · exact ⟨text ++ front, back, c, k, rest, by simp, hstarts⟩

instance (s : Statement) : Decidable s.IsPlain :=
  decidable_of_iff (s.path ≠ [] ∧ s.path.any isQuote = false ∧ s.media.all Text.isBlank = true)
    ⟨fun ⟨hne, hplain, hmedia⟩ => ⟨hne, by simpa using hplain, List.all_eq_true.mp hmedia⟩,
      fun h => ⟨h.path_ne_nil, by simpa using h.path_plain, List.all_eq_true.mpr h.media_blank⟩⟩

instance decidableOpensIn : ∀ text behind : Text, Decidable (OpensIn text behind)
  | [], behind => .isFalse (not_opensIn_nil behind)
  | c :: text, behind =>
    have := decidableOpensIn text behind
    decidable_of_iff ((readImport (c :: (text ++ behind))).isSome = true ∨ OpensIn text behind)
      (by rw [opensIn_cons_iff, ← exists_starts_iff])

instance decidableIsPlain : ∀ parts : List Part, Decidable (IsPlain parts)
  | [] => .isTrue trivial
  | .statement s :: more =>
    have := decidableIsPlain more
    inferInstanceAs (Decidable (s.IsPlain ∧ IsPlain more))
  | .kept k :: more =>
    have := decidableIsPlain more
    inferInstanceAs (Decidable (¬ OpensIn k.text (more.flatMap Part.text) ∧ IsPlain more))

/-- What of a statement the pattern leaves: nothing exactly if there is no media text. -/
theorem Statement.exists_starts (s : Statement) (hne : s.path ≠ [])
    (hplain : ∀ c ∈ s.path, isQuote c = false) {behind : Text}
    (hbehind : ∀ c ∈ behind.head?, Text.isBlank c = false) :
    ∃ (k : Clause) (left : Text), k.target = s.path ∧ k.Starts (s.text ++ behind) (left ++ behind) ∧
      (left = [] ↔ ∀ c ∈ s.media, Text.isBlank c = true) := by
  by_cases hmedia : ∀ c ∈ s.media, Text.isBlank c = true
  · refine ⟨⟨s.gap, s.quote, s.path, s.quote, ⟨s.media, hmedia⟩, some s.ending, s.isQuote_quote,
      s.isQuote_quote, hne, hplain⟩, [], rfl, ⟨?_, hbehind, by simp⟩, by simpa using hmedia⟩
    simp [Statement.text, Clause.text, Clause.endingText]
  · obtain ⟨b, hb⟩ := Header.exists_blanks_append_skipBlank s.media
    have hhead := isBlank_head_skipBlank s.media
    have hsemicolon : ';' ∉ skipBlank s.media := fun h =>
      s.semicolon_not_mem_media (hb ▸ List.mem_append_right _ h)
    cases hskip : skipBlank s.media with
    | nil =>
      rw [hskip, List.append_nil] at hb
      exact absurd (hb ▸ b.blank) hmedia
    | cons c left =>
      rw [hskip] at hb hhead hsemicolon
      refine ⟨⟨s.gap, s.quote, s.path, s.quote, b, none, s.isQuote_quote, s.isQuote_quote, hne, hplain⟩,
        c :: left ++ ';' :: s.ending.text, rfl, ⟨?_, by simpa using hhead, ?_⟩, by simpa using hmedia⟩
      · simp [Statement.text, Clause.text, Clause.endingText, hb]
      · intro _ d hd
        obtain rfl : c = d := by simpa using hd
        exact fun h => hsemicolon (h ▸ List.mem_cons_self)

/-! ## What a scan does with the parts -/

theorem Scanned.of_starts {k : Clause} {text rest kept : Text} {targets : List Text}
    (h : Scanned text targets kept) (hstarts : k.Starts text rest) :
    ∃ more, targets = k.target :: more ∧ Scanned rest more kept := by
  cases h with
  | nil => exact absurd hstarts.length_lt (Nat.not_lt_zero _)
  | keep none _ => exact absurd hstarts (none k rest)
  | @take k' text rest' kept targets starts more =>
    have hsame := starts.readImport.symm.trans hstarts.readImport
    obtain ⟨htarget, rfl⟩ := Prod.mk.inj (Option.some.inj hsame)
    exact ⟨targets, by rw [htarget], more⟩

theorem Scanned.eq_nil {kept : Text} {targets : List Text} (h : Scanned [] targets kept) :
    targets = [] ∧ kept = [] := by
  cases h with
  | nil => exact ⟨rfl, rfl⟩
  | take starts _ => exact absurd starts.length_lt (Nat.not_lt_zero _)

theorem Scanned.target_plain {text kept : Text} {targets : List Text} (h : Scanned text targets kept) :
    ∀ p ∈ targets, p ≠ [] ∧ ∀ c ∈ p, isQuote c = false := by
  induction h with
  | nil => simp
  | keep _ _ ih => exact ih
  | @take k _ _ _ _ _ _ ih => exact List.forall_mem_cons.mpr ⟨⟨k.target_ne_nil, k.target_plain⟩, ih⟩

/-- A text in which no import begins is kept. -/
theorem Scanned.append {text behind kept : Text} {targets : List Text}
    (hopens : ¬ OpensIn text behind) (h : Scanned behind targets kept) :
    Scanned (text ++ behind) targets (text ++ kept) := by
  induction text with
  | nil => exact h
  | cons c text ih =>
    rw [opensIn_cons_iff, not_or] at hopens
    exact .keep (fun k rest hstarts => hopens.1 ⟨k, rest, hstarts⟩) (ih hopens.2)

theorem scanned_of_plain {parts : List Part} (hspaced : IsSpaced parts) (hplain : IsPlain parts) :
    Scanned (parts.flatMap Part.text) (parts.filterMap Part.path?) (parts.flatMap Part.rest) := by
  induction parts with
  | nil => exact .nil
  | cons part more ih =>
    cases part with
    | kept k => exact (ih hspaced hplain.2).append hplain.1
    | statement s =>
      obtain ⟨k, left, htarget, hstarts, hleft⟩ :=
        s.exists_starts hplain.1.path_ne_nil hplain.1.path_plain hspaced.1
      rw [hleft.mpr hplain.1.media_blank, List.nil_append] at hstarts
      have htake := Scanned.take hstarts (ih hspaced.2 hplain.2)
      rw [htarget] at htake
      exact htake

/-! ## Where an import can reach -/

theorem importWord_eq : importWord = '@' :: "import".toList := by decide

/-- The part of an import before and behind its path does not hold an `@`. -/
theorem Clause.exists_text (k : Clause) : ∃ left right : Text,
    k.text = '@' :: (left ++ (k.target ++ k.closing :: right)) ∧ '@' ∉ left ∧ '@' ∉ k.closing :: right := by
  have hblank : ∀ b : Blanks, '@' ∉ b.text := fun b h => absurd (b.blank _ h) (by decide)
  have hquote : ∀ {c : Char}, isQuote c = true → '@' ≠ c := by
    rintro c hc rfl
    exact absurd hc (by decide)
  have hending : '@' ∉ endingText k.ending := by
    cases k.ending with
    | none => exact List.not_mem_nil
    | some b => exact List.not_mem_cons_of_ne_of_not_mem (by decide) (hblank b)
  refine ⟨"import".toList ++ (k.gap.text ++ [k.opening]), k.behind.text ++ endingText k.ending, ?_, ?_, ?_⟩
  · simp [Clause.text, importWord_eq]
  · simp only [List.mem_append, List.mem_singleton, not_or]
    exact ⟨by decide, hblank _, hquote k.opening_quote⟩
  · simp only [List.mem_cons, List.mem_append, not_or]
    exact ⟨hquote k.closing_quote, hblank _, hending⟩

/-- An import ends before the next statement, if its path does not hold the word with which one begins. -/
theorem Clause.length_le_of_word {k : Clause} (hword : ¬ importWord <:+: k.target)
    {text behind rest : Text} (hne : text ≠ []) (h : k.text ++ rest = text ++ (importWord ++ behind)) :
    k.text.length ≤ text.length := by
  by_contra hlt
  obtain ⟨left, right, htext, hleft, hright⟩ := k.exists_text
  -- the word begins inside the import, behind its first character
  obtain ⟨inner, hinner, hrest⟩ := Lists.exists_append_of_length_le h.symm (by omega)
  obtain ⟨inner, rfl⟩ : ∃ more, inner = '@' :: more := by
    cases inner with
    | nil => simp [hinner] at hlt
    | cons d inner =>
      rw [importWord_eq] at hrest
      exact ⟨inner, by rw [(List.cons.inj hrest).1]⟩
  obtain ⟨d, text, rfl⟩ := List.exists_cons_of_ne_nil hne
  have hinside : text ++ '@' :: inner = left ++ (k.target ++ k.closing :: right) :=
    (List.cons.inj (hinner.symm.trans htext)).2
  obtain ⟨front, -, hmiddle⟩ := Lists.exists_append_of_not_mem_left hinside hleft
  obtain ⟨back, htarget, rfl⟩ := Lists.exists_append_of_not_mem_right hmiddle.symm hright
  -- the closing quote stands behind the whole word
  have hback : back ++ k.closing :: (right ++ rest) = "import".toList ++ behind := by
    simpa [importWord_eq] using hrest.symm
  have hclosing : k.closing ∉ "import".toList := by
    have hnone : "import".toList.any isQuote = false := by decide
    exact fun hmem => Bool.false_ne_true (hnone.symm.trans (List.any_eq_true.mpr ⟨_, hmem, k.closing_quote⟩))
  obtain ⟨word, rfl, -⟩ := Lists.exists_append_of_not_mem_left hback hclosing
  exact hword ⟨front, word, by simp [htarget, importWord_eq]⟩

/-- What a scan does up to the next statement: if it takes no import there, it keeps all. -/
theorem Scanned.until_word {text behind kept : Text} {targets : List Text}
    (h : Scanned (text ++ behind) targets kept) (hbehind : behind = [] ∨ importWord <+: behind)
    (hword : ∀ p ∈ targets, ¬ importWord <:+: p) :
    ∃ first more keptFirst keptMore, targets = first ++ more ∧ kept = keptFirst ++ keptMore ∧
      Scanned behind more keptMore ∧ (first = [] → keptFirst = text ∧ ¬ OpensIn text behind) := by
  induction hn : text.length using Nat.strong_induction_on generalizing text targets kept with
  | _ n ih =>
    cases text with
    | nil => exact ⟨[], targets, [], kept, rfl, rfl, h, fun _ => ⟨rfl, not_opensIn_nil _⟩⟩
    | cons c text =>
      cases h with
      | @keep _ _ kept _ none h =>
        obtain ⟨first, more, keptFirst, keptMore, rfl, rfl, hmore, hfirst⟩ :=
          ih text.length (by rw [← hn]; exact Nat.lt_succ_self _) h hword rfl
        refine ⟨first, more, c :: keptFirst, keptMore, rfl, rfl, hmore, fun hnil => ?_⟩
        obtain ⟨rfl, hopens⟩ := hfirst hnil
        refine ⟨rfl, ?_⟩
        rw [opensIn_cons_iff, not_or]
        exact ⟨fun ⟨k, rest, hstarts⟩ => none k rest hstarts, hopens⟩
      | @take k _ rest _ targets starts h =>
        obtain ⟨hk, hwords⟩ := List.forall_mem_cons.mp hword
        have hle : k.text.length ≤ (c :: text).length := by
          rcases hbehind with rfl | ⟨more, rfl⟩
          · have hlength := congrArg List.length starts.split
            simp only [List.length_append, List.length_cons, List.length_nil] at hlength ⊢
            omega
          · exact Clause.length_le_of_word hk (List.cons_ne_nil c text) starts.split.symm
        obtain ⟨left, hleft, rfl⟩ := Lists.exists_append_of_length_le starts.split.symm hle
        have hlt : left.length < n := by
          have hpos := starts.length_lt
          simp only [List.length_append] at hpos
          rw [← hn]
          omega
        obtain ⟨first, more, keptFirst, keptMore, rfl, rfl, hmore, -⟩ := ih left.length hlt h hwords rfl
        exact ⟨k.target :: first, more, keptFirst, keptMore, rfl, rfl, hmore, by simp⟩

/-! ## No more statements than imports -/

/-- A scan finds more imports than there are statements, or leaves more than what stands between them, or
the pattern fits every statement and nothing else. -/
theorem Scanned.more_or_plain {parts : List Part} (hspaced : IsSpaced parts)
    (hpaths : ∀ p ∈ parts.filterMap Part.path?, p ≠ [] ∧ ∀ c ∈ p, isQuote c = false)
    {text kept : Text} {targets : List Text}
    (h : Scanned (text ++ parts.flatMap Part.text) targets kept)
    (hword : ∀ p ∈ targets, ¬ importWord <:+: p) :
    (parts.filterMap Part.path?).length < targets.length ∨
      (parts.filterMap Part.path?).length = targets.length ∧
        ((text ++ parts.flatMap Part.rest).length < kept.length ∨
          (text ++ parts.flatMap Part.rest).length = kept.length ∧
            IsPlain parts ∧ ¬ OpensIn text (parts.flatMap Part.text)) := by
  induction parts generalizing text kept targets with
  | nil =>
    obtain ⟨first, more, keptFirst, keptMore, rfl, rfl, hmore, hfirst⟩ := h.until_word (.inl rfl) hword
    obtain ⟨rfl, rfl⟩ := hmore.eq_nil
    cases first with
    | cons p first => exact .inl (Nat.succ_pos _)
    | nil =>
      obtain ⟨rfl, hopens⟩ := hfirst rfl
      exact .inr ⟨rfl, .inr ⟨rfl, trivial, hopens⟩⟩
  | cons part parts ih =>
    cases part with
    | kept k =>
      rw [List.flatMap_cons, ← List.append_assoc] at h
      rw [List.flatMap_cons, ← List.append_assoc]
      rcases ih hspaced hpaths h hword with hmore | ⟨hsame, hlonger | ⟨hlength, hparts, hopens⟩⟩
      · exact .inl hmore
      · exact .inr ⟨hsame, .inl hlonger⟩
      · refine .inr ⟨hsame, .inr ⟨hlength, ⟨?_, hparts⟩, ?_⟩⟩
        · exact fun hin => hopens (opensIn_append (.inr hin))
        · exact fun hin => hopens (opensIn_append (.inl hin))
    | statement s =>
      obtain ⟨⟨hne, hquotes⟩, hpaths⟩ := List.forall_mem_cons.mp hpaths
      obtain ⟨first, others, keptFirst, keptMore, rfl, rfl, hmore, hfirst⟩ :=
        h.until_word (.inr ⟨_, (List.append_assoc ..).symm⟩) hword
      obtain ⟨k, left, htarget, hstarts, hleft⟩ := s.exists_starts hne hquotes hspaced.1
      obtain ⟨more, rfl, hscan⟩ := hmore.of_starts hstarts
      have hcount : (List.filterMap Part.path? (.statement s :: parts)).length =
          (parts.filterMap Part.path?).length + 1 := rfl
      have hrest : List.flatMap Part.rest (.statement s :: parts) = parts.flatMap Part.rest := rfl
      rw [hcount, hrest]
      have hmore := ih hspaced.2 hpaths hscan (fun p hp => hword p (by simp [hp]))
      cases first with
      | cons p first => exact .inl (by simp only [List.length_append, List.length_cons]; omega)
      | nil =>
        obtain ⟨rfl, hopens⟩ := hfirst rfl
        simp only [List.length_append, List.length_cons, List.length_nil] at hmore ⊢
        rcases hmore with hmore | ⟨hsame, hlonger | ⟨hlength, hparts, -⟩⟩
        · exact .inl (by omega)
        · exact .inr ⟨by omega, .inl (by omega)⟩
        · refine .inr ⟨by omega, ?_⟩
          cases left with
          | cons c left => exact .inl (by simp only [List.length_cons] at hlength; omega)
          | nil =>
            refine .inr ⟨by simpa using hlength, ⟨⟨hne, hquotes, hleft.mp rfl⟩, hparts⟩, hopens⟩

/-! ## All statements and nothing else -/

/-- The imports that are found are the statements, and what is left is all but the statements. -/
def Source.IsRecognised (s : Source) : Prop :=
  splitImports s.text = (s.paths, s.rest)

theorem isPlain_of_isRecognised {s : Source} (hword : ∀ p ∈ s.paths, ¬ importWord <:+: p)
    (h : s.IsRecognised) : IsPlain s.parts := by
  have hscan : Scanned ([] ++ s.text) s.paths s.rest := splitImports_eq_iff.mp h
  have hpaths := hscan.target_plain
  rcases hscan.more_or_plain s.spaced hpaths hword with hmore | ⟨-, hlonger | ⟨-, hplain, -⟩⟩
  · exact absurd hmore (Nat.lt_irrefl _)
  · exact absurd hlonger (Nat.lt_irrefl _)
  · exact hplain

theorem openSheet_of_isRecognised {s : Source} (h : s.IsRecognised) {fs : FileTree} {path : Path}
    (hfile : fs.isFile path = true) (hread : fs.readText path = .ok s.text) :
    openSheet fs path = .ok ⟨path, s.paths.map (importPath path), s.rest⟩ := by
  rw [openSheet, if_pos hfile, hread]
  simp only [show splitImports s.text = (s.paths, s.rest) from h]

/-- **Import statements.** In a plain stylesheet the imports are the statements in their order, and what is
left is the text without these statements. No other stylesheet is read so, unless one of its paths holds
`@import` itself. -/
theorem recognised_iff_plain (s : Source) :
    (IsPlain s.parts → s.IsRecognised ∧
      ∀ (fs : FileTree) (path : Path), fs.isFile path = true → fs.readText path = .ok s.text →
        openSheet fs path = .ok ⟨path, s.paths.map (importPath path), s.rest⟩) ∧
    ((∀ p ∈ s.paths, ¬ importWord <:+: p) → s.IsRecognised → IsPlain s.parts) := by
  refine ⟨fun hplain => ?_, isPlain_of_isRecognised⟩
  have h : s.IsRecognised := splitImports_eq_iff.mpr (scanned_of_plain s.spaced hplain)
  exact ⟨h, fun fs path hfile hread => openSheet_of_isRecognised h hfile hread⟩

/-- `@import "c.css" media;` and a line feed. -/
def imported (media : Text) (hmedia : ';' ∉ media) : Statement where
  gap := ⟨[' '], List.forall_mem_singleton.mpr (by decide)⟩
  quote := '"'
  path := "c.css".toList
  media := media
  ending := ⟨['\n'], List.forall_mem_singleton.mpr (by decide)⟩
  isQuote_quote := by decide
  quote_not_mem_path := by decide
  semicolon_not_mem_media := hmedia

def plainSource : Source where
  parts := [.statement (imported [] (by decide)), .kept (.rule ".a{}".toList)]
  spaced := ⟨by rintro c ⟨⟩; decide, trivial⟩

/-- A comment holds an import, and behind it stands an import for one medium only. -/
def printSource : Source where
  parts := [.kept (.comment ⟨" @import \"b.css\"; ".toList, by decide +kernel⟩),
    .statement (imported " print".toList (by decide)), .kept (.rule ".a{}".toList)]
  spaced := ⟨by rintro c ⟨⟩; decide, trivial⟩

/-- The import in the comment is found and taken out of it, and the medium is left. -/
theorem print_not_recognised :
    splitImports printSource.text =
        (["b.css".toList, "c.css".toList], "/* */print;\n.a{}".toList) ∧
      printSource.paths = ["c.css".toList] ∧
      printSource.rest = "/* @import \"b.css\"; */.a{}".toList ∧
      ¬ printSource.IsRecognised ∧ ¬ IsPlain printSource.parts ∧
      plainSource.IsRecognised ∧ IsPlain plainSource.parts := by
  have hplain : IsPlain plainSource.parts := by decide +kernel
  have hfound := (recognised_iff_plain plainSource).1 hplain
  have hnotPlain : ¬ IsPlain printSource.parts := by decide +kernel
  have hwords : ∀ p ∈ printSource.paths, ¬ importWord <:+: p := by decide +kernel
  have hlost : ¬ printSource.IsRecognised :=
    fun h => hnotPlain ((recognised_iff_plain printSource).2 hwords h)
  exact ⟨by decide +kernel, by decide +kernel, by decide +kernel, hlost, hnotPlain, hfound.1, hplain⟩

/-- An import begins in the rule and ends in the statement, and what it takes spells the statement. -/
example : ∃ s : Source, s.IsRecognised ∧ ¬ IsPlain s.parts :=
  ⟨⟨[.kept (.rule "@import \";".toList),
      .statement ⟨⟨[' '], List.forall_mem_singleton.mpr (by decide)⟩, '"', ";@import ".toList, [],
        ⟨[], List.forall_mem_nil _⟩, by decide, by decide, by decide⟩],
      ⟨nofun, trivial⟩⟩,
    by rw [Source.IsRecognised]; decide +kernel, by decide +kernel⟩

end AmdBundle.Stylesheet
