import AmdBundle.Proofs.Lists
import AmdBundle.Proofs.Text.Case
import AmdBundle.Settings.Environment
import Mathlib.Data.List.SplitBy

/-!
# Names of variables, word by word

The name of a variable says a field in words with underscores between them, and the field says the same
words with capitals.

* `wordsIn`, `wordsOf` : the words of the name and of the field; `joined` : words run together;
* `camelCase_eq_joined` : a name becomes its words run together, if no underscore stands in front;
* `wordsOf_joined` : words that were run together are told apart by their capitals;
* `fieldOf?_eq_some_iff` : a name sets a field exactly if it says the words of the field;
* `decodes` : what does not matter in a name, and what does.
-/

set_option autoImplicit false

namespace AmdBundle.Settings.Environment
open Text

/-- The words between underscores, in small letters. -/
def wordsIn (key : Text) : List Text :=
  ((List.splitOn '_' key).filter fun chunk => !chunk.isEmpty).map asciiLower

/-- The words of a field, of which every one but the first begins with a capital, in small letters. -/
def wordsOf (field : Text) : List Text :=
  (field.splitBy fun _ c => !c.isUpper).map asciiLower

/-- Words run together, each but the first with a capital in front. -/
def joined : List Text → Text
  | [] => []
  | first :: more => first ++ more.flatMap capitalized

variable {key field : Text}

/-! ## From a name to its words run together -/

/-- The first part of a name keeps small letters, unless an underscore stands before it. -/
theorem camelCase_of_splitOn {first : Text} {more : List Text}
    (h : List.splitOn '_' key = first :: more) :
    camelCase false key = asciiLower first ++ more.flatMap capitalized ∧
      camelCase true key = capitalized first ++ more.flatMap capitalized := by
  induction key generalizing first more with
  | nil =>
    obtain ⟨rfl, rfl⟩ := List.cons.inj h
    exact ⟨rfl, rfl⟩
  | cons c rest ih =>
    obtain ⟨next, others, hrest⟩ := List.exists_cons_of_ne_nil (List.splitOn_ne_nil '_' rest)
    obtain ⟨hsmall, hcapital⟩ := ih hrest
    rw [List.splitOn_cons_eq_if_modifyHead, hrest] at h
    by_cases hc : c = '_'
    · rw [if_pos (by simp [hc])] at h
      obtain ⟨rfl, rfl⟩ := List.cons.inj h
      simp only [camelCase, if_pos hc, hcapital]
      exact ⟨rfl, rfl⟩
    · rw [if_neg (by simp [hc])] at h
      obtain ⟨rfl, rfl⟩ := List.cons.inj h
      simp only [camelCase, if_neg hc, hsmall]
      exact ⟨rfl, rfl⟩

theorem flatMap_capitalized_words (chunks : List Text) :
    ((chunks.filter fun chunk => !chunk.isEmpty).map asciiLower).flatMap capitalized =
      chunks.flatMap capitalized := by
  induction chunks with
  | nil => rfl
  | cons chunk chunks ih =>
    cases chunk with
    | nil => exact ih
    | cons c rest =>
      rw [List.filter_cons_of_pos rfl, List.map_cons, List.flatMap_cons, List.flatMap_cons, ih,
        capitalized_asciiLower]

/-- **A name becomes its words run together**, if no underscore stands in front. -/
theorem camelCase_eq_joined (h : key.head? ≠ some '_') : camelCase false key = joined (wordsIn key) := by
  cases key with
  | nil => rfl
  | cons c rest =>
    have hc : c ≠ '_' := fun heq => h (by rw [heq]; rfl)
    obtain ⟨first, more, hrest⟩ := List.exists_cons_of_ne_nil (List.splitOn_ne_nil '_' rest)
    have hsplit : List.splitOn '_' (c :: rest) = (c :: first) :: more := by
      rw [List.splitOn_cons_eq_if_modifyHead, hrest, if_neg (by simp [hc])]
      rfl
    rw [(camelCase_of_splitOn hsplit).1, wordsIn, hsplit, List.filter_cons_of_pos rfl, List.map_cons,
      joined, flatMap_capitalized_words]

/-- Behind underscores no small letter comes first. -/
theorem isLower_of_head?_camelCase {c : Char} (h : (camelCase true key).head? = some c) :
    c.isLower = false := by
  induction key with
  | nil => cases h
  | cons d rest ih =>
    by_cases hd : d = '_'
    · rw [camelCase, if_pos hd] at h
      exact ih h
    · rw [camelCase, if_neg hd] at h
      obtain rfl := Option.some.inj h
      exact isLower_upperChar d

/-! ## Words of letters -/

theorem mem_camelCase {c : Char} (hc : c ∈ key) (hsign : c ≠ '_') (atWord : Bool) :
    lowerChar c ∈ camelCase atWord key ∨ upperChar c ∈ camelCase atWord key := by
  induction key generalizing atWord with
  | nil => cases hc
  | cons d rest ih =>
    rcases List.mem_cons.mp hc with rfl | hc
    · rw [camelCase, if_neg hsign]
      cases atWord with
      | false => exact .inl List.mem_cons_self
      | true => exact .inr List.mem_cons_self
    · by_cases hd : d = '_'
      · rw [camelCase, if_pos hd]
        exact ih hc true
      · rw [camelCase, if_neg hd]
        exact (ih hc false).imp (List.mem_cons_of_mem _) (List.mem_cons_of_mem _)

/-- A word of small letters. -/
def IsWord (word : Text) : Prop :=
  word ≠ [] ∧ ∀ c ∈ word, c.isLower = true

/-- A name that becomes letters has words of letters. -/
theorem isWord_of_mem_wordsIn (h : ∀ c ∈ camelCase false key, c.isAlpha = true) :
    ∀ word ∈ wordsIn key, IsWord word := by
  intro word hword
  obtain ⟨chunk, hchunk, rfl⟩ := List.mem_map.mp hword
  obtain ⟨hmem, hne⟩ := List.mem_filter.mp hchunk
  refine ⟨fun hnil => ?_, fun c hc => ?_⟩
  · rw [List.map_eq_nil_iff.mp hnil] at hne
    cases hne
  · obtain ⟨d, hd, rfl⟩ := List.mem_map.mp hc
    have hsign : d ≠ '_' := fun heq => Lists.not_mem_of_mem_splitOn hmem (heq ▸ hd)
    have hcamel := mem_camelCase (Lists.mem_of_mem_splitOn hmem hd) hsign false
    exact isLower_lowerChar (hcamel.imp (h _) (h _))

theorem IsWord.asciiLower {word : Text} (h : IsWord word) : asciiLower word = word :=
  asciiLower_of_isLower h.2

theorem isChain_of_tail {α : Type} {R : α → α → Prop} {xs : List α}
    (h : ∀ x ∈ xs, ∀ y ∈ xs.tail, R x y) : xs.IsChain R := by
  cases xs with
  | nil => exact .nil
  | cons x xs =>
    induction xs generalizing x with
    | nil => exact .singleton x
    | cons y ys ih =>
      refine .cons_cons (h x List.mem_cons_self y List.mem_cons_self) (ih y fun a ha b hb => ?_)
      exact h a (List.mem_cons_of_mem x ha) b (List.mem_cons_of_mem y hb)

theorem IsWord.capitalized {word : Text} (h : IsWord word) :
    ∃ c rest, capitalized word = c :: rest ∧ c.isUpper = true ∧ ∀ d ∈ rest, d.isUpper = false := by
  obtain ⟨hne, hletters⟩ := h
  obtain ⟨c, rest, rfl⟩ := List.exists_cons_of_ne_nil hne
  obtain ⟨hc, hrest⟩ := List.forall_mem_cons.mp hletters
  refine ⟨upperChar c, rest, ?_, (of_isLower hc).2.1, fun d hd => (of_isLower (hrest d hd)).2.2⟩
  show upperChar c :: Text.asciiLower rest = _
  rw [asciiLower_of_isLower hrest]

/-- **Words that were run together are told apart by their capitals.** -/
theorem wordsOf_joined {words : List Text} (h : ∀ word ∈ words, IsWord word) :
    wordsOf (joined words) = words := by
  cases words with
  | nil => rfl
  | cons first more =>
    obtain ⟨hfirst, hmore⟩ := List.forall_mem_cons.mp h
    have hjoined : joined (first :: more) = (first :: more.map capitalized).flatten := by
      rw [joined, List.flatten_cons, List.flatMap_def]
    have hcapital : ∀ part ∈ more.map capitalized,
        ∃ c rest, part = c :: rest ∧ c.isUpper = true ∧ ∀ d ∈ rest, d.isUpper = false :=
      List.forall_mem_map.mpr fun word hword => (hmore word hword).capitalized
    have hparts : ∀ part ∈ first :: more.map capitalized,
        part ≠ [] ∧ ∀ c ∈ part.tail, c.isUpper = false := by
      refine List.forall_mem_cons.mpr ⟨⟨hfirst.1, fun c hc => ?_⟩, fun part hpart => ?_⟩
      · exact (of_isLower (hfirst.2 c (List.mem_of_mem_tail hc))).2.2
      · obtain ⟨c, rest, rfl, -, hrest⟩ := hcapital part hpart
        exact ⟨List.cons_ne_nil c rest, hrest⟩
    have hsplit : (joined (first :: more)).splitBy (fun _ c => !c.isUpper) =
        first :: more.map capitalized := by
      rw [hjoined]
      refine List.splitBy_flatten (fun hnil => (hparts [] hnil).1 rfl) (fun part hpart => ?_) ?_
      · exact isChain_of_tail fun _ _ d hd => by rw [(hparts part hpart).2 d hd]; rfl
      · refine isChain_of_tail fun part hpart other hother => ?_
        obtain ⟨c, rest, rfl, hc, -⟩ := hcapital other hother
        exact ⟨(hparts part hpart).1, List.cons_ne_nil c rest, by rw [List.head_cons, hc]; rfl⟩
    have hmap : (more.map capitalized).map asciiLower = more := by
      rw [List.map_map]
      refine (List.map_congr_left fun word hword => ?_).trans (List.map_id more)
      exact (asciiLower_capitalized word).trans (hmore word hword).asciiLower
    rw [wordsOf, hsplit, List.map_cons, hfirst.asciiLower, hmap]

/-! ## Fields -/

/-- What is so of every field that a variable may set. -/
theorem field_joined : ∀ f ∈ fields, joined (wordsOf f.toList) = f.toList ∧
    f.toList.all Char.isAlpha = true ∧ f.toList.head?.any Char.isLower = true := by
  decide

theorem fieldOf?_eq_some_iff_camelCase :
    fieldOf? key = some field ↔ camelCase false key = field ∧ field ∈ fields.map String.toList := by
  have hany : (fields.any fun f => f.toList == camelCase false key) = true ↔
      camelCase false key ∈ fields.map String.toList := by
    simp
  unfold fieldOf?
  dsimp only
  split
  · next h =>
    rw [Option.some.injEq]
    exact ⟨fun heq => ⟨heq, heq ▸ hany.mp h⟩, fun heq => heq.1⟩
  · next h =>
    refine iff_of_false (by simp) ?_
    rintro ⟨rfl, hmem⟩
    exact h (hany.mpr hmem)

/-- **A name sets a field exactly if it says the words of the field**, and no underscore stands in
front. -/
theorem fieldOf?_eq_some_iff : fieldOf? key = some field ↔
    field ∈ fields.map String.toList ∧ key.head? ≠ some '_' ∧ wordsIn key = wordsOf field := by
  rw [fieldOf?_eq_some_iff_camelCase]
  constructor
  · rintro ⟨rfl, hmem⟩
    obtain ⟨f, hf, hname⟩ := List.mem_map.mp hmem
    obtain ⟨-, hletters, hfirst⟩ := field_joined f hf
    rw [hname] at hletters hfirst
    have hhead : key.head? ≠ some '_' := by
      intro hhead
      cases key with
      | nil => cases hhead
      | cons d rest =>
        obtain rfl := Option.some.inj hhead
        obtain ⟨c, hc, hlower⟩ := (Option.any_eq_true _ _).mp hfirst
        exact Bool.noConfusion (hlower.symm.trans (isLower_of_head?_camelCase hc))
    refine ⟨hmem, hhead, ?_⟩
    rw [camelCase_eq_joined hhead, wordsOf_joined (isWord_of_mem_wordsIn (List.all_eq_true.mp hletters))]
  · rintro ⟨hmem, hhead, hwords⟩
    obtain ⟨f, hf, rfl⟩ := List.mem_map.mp hmem
    refine ⟨?_, hmem⟩
    rw [camelCase_eq_joined hhead, hwords, (field_joined f hf).1]

/-! ## What does not matter -/

theorem camelCase_asciiLower (atWord : Bool) (key : Text) :
    camelCase atWord (asciiLower key) = camelCase atWord key := by
  induction key generalizing atWord with
  | nil => rfl
  | cons c rest ih =>
    have hsign : lowerChar c = '_' ↔ c = '_' := lowerChar_eq_sign_iff c
    show camelCase atWord (lowerChar c :: asciiLower rest) = _
    by_cases hc : c = '_'
    · rw [camelCase, camelCase, if_pos hc, if_pos (hsign.mpr hc), ih]
    · rw [camelCase, camelCase, if_neg hc, if_neg (mt hsign.mp hc), ih, upperChar_lowerChar,
        lowerChar_lowerChar]

theorem camelCase_append_sign (atWord : Bool) (front : Text) {back back' : Text}
    (h : camelCase true back = camelCase true back') :
    camelCase atWord (front ++ '_' :: back) = camelCase atWord (front ++ '_' :: back') := by
  induction front generalizing atWord with
  | nil => simpa [camelCase] using h
  | cons c rest ih => simp only [List.cons_append, camelCase, ih]

theorem camelCase_concat_sign (atWord : Bool) (key : Text) :
    camelCase atWord (key ++ ['_']) = camelCase atWord key := by
  induction key generalizing atWord with
  | nil => rfl
  | cons c rest ih => simp only [List.cons_append, camelCase, ih]

theorem fieldOf?_congr {key' : Text} (h : camelCase false key = camelCase false key') :
    fieldOf? key = fieldOf? key' := by
  unfold fieldOf?
  rw [h]

/-- How the names of variables are read. -/
structure Decodes : Prop where
  /-- Words in front, between or behind, run together or taken apart, make another name. -/
  exact : ∀ key field, fieldOf? key = some field ↔
    field ∈ fields.map String.toList ∧ key.head? ≠ some '_' ∧ wordsIn key = wordsOf field
  refused : ∀ key, (∀ field ∈ fields.map String.toList, wordsIn key ≠ wordsOf field) →
    fieldOf? key = none
  anyCase : ∀ key key', asciiLower key = asciiLower key' → fieldOf? key = fieldOf? key'
  doubled : ∀ front back, fieldOf? (front ++ '_' :: '_' :: back) = fieldOf? (front ++ '_' :: back)
  trailing : ∀ key, fieldOf? (key ++ ['_']) = fieldOf? key

/-- **What matters in the name of a variable, and what does not.** -/
theorem decodes : Decodes where
  exact _ _ := fieldOf?_eq_some_iff
  refused key h := by
    refine Option.eq_none_iff_forall_ne_some.mpr fun field hfield => ?_
    obtain ⟨hmem, -, hwords⟩ := fieldOf?_eq_some_iff.mp hfield
    exact h field hmem hwords
  anyCase key key' h := by
    refine fieldOf?_congr ?_
    rw [← camelCase_asciiLower, h, camelCase_asciiLower]
  doubled front _ := fieldOf?_congr (camelCase_append_sign false front rfl)
  trailing key := fieldOf?_congr (camelCase_concat_sign false key)

example : wordsOf "settleTimeoutMs".toList = wordsIn "Settle__TIMEOUT_ms_".toList := by decide

end AmdBundle.Settings.Environment
