import AmdBundle.Text.Lines
import Mathlib.Data.List.Basic

/-!
# Where lines begin

* `mem_lineStarts_iff` : a line begins at the top of a text and behind every line feed, and its
  number is one more than the line feeds before it;
* `laterLines_append` : the lines of a text that is put together;
* `pairwise_lineStarts` : line numbers grow.
-/

set_option autoImplicit false

namespace AmdBundle.Text

theorem dropWord_eq_some_iff {word text rest : Text} :
    dropWord word text = some rest ↔ text = word ++ rest := by
  rw [dropWord, List.isPrefixOf?_eq_some_iff_append_eq]
  exact eq_comm

/-! ## Line starts behind a line feed -/

theorem laterLines_append (n : Nat) (a b : Text) :
    laterLines n (a ++ b) =
      (laterLines n a).map (fun line => (line.1, line.2 ++ b)) ++
        laterLines (n + a.count '\n') b := by
  induction a generalizing n with
  | nil => rfl
  | cons c a ih =>
    by_cases hc : c = '\n'
    · subst hc
      have hcount : n + 1 + a.count '\n' = n + ('\n' :: a).count '\n' := by simp; omega
      simp only [List.cons_append, laterLines, if_true, List.map_cons]
      rw [ih (n + 1), hcount]
    · have hcount : (c :: a).count '\n' = a.count '\n' := List.count_cons_of_ne hc
      simp only [List.cons_append, laterLines, if_neg hc]
      rw [ih n, hcount]

theorem mem_laterLines_iff {n m : Nat} {text rest : Text} :
    (m, rest) ∈ laterLines n text ↔
      ∃ front, text = front ++ '\n' :: rest ∧ m = n + front.count '\n' + 1 := by
  induction text generalizing n with
  | nil => simp [laterLines]
  | cons c text ih =>
    constructor
    · intro h
      by_cases hc : c = '\n'
      · subst hc
        simp only [laterLines, if_true, List.mem_cons, Prod.mk.injEq] at h
        rcases h with ⟨rfl, rfl⟩ | h
        · exact ⟨[], rfl, rfl⟩
        · obtain ⟨front, rfl, rfl⟩ := ih.mp h
          exact ⟨'\n' :: front, rfl, by simp; omega⟩
      · rw [laterLines, if_neg hc] at h
        obtain ⟨front, rfl, rfl⟩ := ih.mp h
        exact ⟨c :: front, rfl, by rw [List.count_cons_of_ne hc]⟩
    · rintro ⟨front, htext, rfl⟩
      cases front with
      | nil =>
        obtain ⟨rfl, rfl⟩ := List.cons.inj htext
        simp [laterLines]
      | cons d front =>
        obtain ⟨rfl, rfl⟩ := List.cons.inj htext
        by_cases hc : c = '\n'
        · subst hc
          rw [laterLines, if_pos rfl]
          exact List.mem_cons_of_mem _ (ih.mpr ⟨front, rfl, by simp; omega⟩)
        · rw [laterLines, if_neg hc]
          exact ih.mpr ⟨front, rfl, by rw [List.count_cons_of_ne hc]⟩

theorem pairwise_laterLines (n : Nat) (text : Text) :
    (laterLines n text).Pairwise (fun line line' => line.1 < line'.1) := by
  induction text generalizing n with
  | nil => exact List.Pairwise.nil
  | cons c text ih =>
    by_cases hc : c = '\n'
    · rw [laterLines, if_pos hc]
      refine List.Pairwise.cons ?_ (ih (n + 1))
      rintro ⟨m, rest⟩ h
      obtain ⟨front, -, rfl⟩ := mem_laterLines_iff.mp h
      show n + 1 < n + 1 + front.count '\n' + 1
      omega
    · rw [laterLines, if_neg hc]
      exact ih n

/-! ## All line starts -/

/-- The lines of a text are those behind a line feed put in front of it. -/
theorem lineStarts_eq (code : Text) : lineStarts code = laterLines 0 ('\n' :: code) := rfl

/-- **Where lines begin.** -/
theorem mem_lineStarts_iff {m : Nat} {code rest : Text} :
    (m, rest) ∈ lineStarts code ↔
      ∃ front, code = front ++ rest ∧ (front = [] ∨ front.getLast? = some '\n') ∧
        m = front.count '\n' + 1 := by
  rw [lineStarts_eq, mem_laterLines_iff]
  constructor
  · rintro ⟨front, hcode, rfl⟩
    cases front with
    | nil =>
      obtain ⟨-, rfl⟩ := List.cons.inj hcode
      exact ⟨[], rfl, .inl rfl, rfl⟩
    | cons d front =>
      obtain ⟨rfl, rfl⟩ := List.cons.inj hcode
      exact ⟨front ++ ['\n'], by simp, .inr (by simp), by simp⟩
  · rintro ⟨front, rfl, rfl | hlast, rfl⟩
    · exact ⟨[], rfl, rfl⟩
    · obtain ⟨front, rfl⟩ := List.getLast?_eq_some_iff.mp hlast
      exact ⟨'\n' :: front, by simp, by simp⟩

theorem pairwise_lineStarts (code : Text) :
    (lineStarts code).Pairwise (fun line line' => line.1 < line'.1) :=
  pairwise_laterLines 0 ('\n' :: code)

end AmdBundle.Text
