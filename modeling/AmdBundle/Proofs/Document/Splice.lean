import AmdBundle.Document
import AmdBundle.Proofs.Header.Scanning

/-!
# Replacing literals in a text

`Spliced start rewrites text out` : `text`, before which `start` characters stand, falls into the
literals of the rewrites and what stands between them; `out` keeps the latter and has the keys in
place of the literals, each once.

* `Spliced.splice?` : this is what `splice?` computes; `Spliced.append` : texts in a row;
* `splice?_isSome_iff` : literals can be replaced exactly if none begins before the one before ends;
* `exists_spliced` : then the literals of a text are replaced one by one.
-/

set_option autoImplicit false

namespace AmdBundle

/-- The first literal ends before the second one begins. -/
def Rewrite.Before (r r' : Rewrite) : Prop :=
  r.literal.stop ≤ r'.literal.start

namespace Document

/-- The text with every literal replaced by its key, all else being kept; `start` characters stand
before the text. -/
inductive Spliced : Nat → List Rewrite → Text → Text → Prop where
  | done (start : Nat) (text : Text) : Spliced start [] text text
  | replace {start : Nat} {r : Rewrite} {more : List Rewrite} {text out : Text} (kept : Text)
      (place : r.literal.start = start + kept.length) (tail : Spliced r.literal.stop more text out) :
      Spliced start (r :: more) (kept ++ (r.literal.spelling ++ text))
        (kept ++ (r.spelling ++ out))

theorem length_spelling (l : Literal) : l.spelling.length = l.content.length + 2 := by
  simp [Literal.spelling]

/-! ## The computed text -/

theorem Spliced.splice? {start : Nat} {rewrites : List Rewrite} {text out : Text}
    (h : Spliced start rewrites text out) : splice? start rewrites text = some out := by
  induction h with
  | done start text => rfl
  | @replace start r more text out kept place _ ih =>
    have hle : ¬ r.literal.start < start := by omega
    have hkept : r.literal.start - start = kept.length := by omega
    have hstop : r.literal.stop - r.literal.start = r.literal.spelling.length := by
      rw [length_spelling, Literal.stop]
      omega
    simp [Document.splice?, hle, hkept, hstop, ih]

theorem Spliced.keep {start : Nat} {rewrites : List Rewrite} {text out : Text} (kept : Text)
    (h : Spliced (start + kept.length) rewrites text out) :
    Spliced start rewrites (kept ++ text) (kept ++ out) := by
  cases h with
  | done => exact .done start _
  | @replace _ r more text out kept' place tail =>
    rw [← List.append_assoc, ← List.append_assoc kept kept']
    exact .replace (kept ++ kept') (by rw [place, List.length_append, Nat.add_assoc]) tail

theorem Spliced.append {start : Nat} {rewrites rewrites' : List Rewrite} {a b a' b' : Text}
    (h : Spliced start rewrites a a') (h' : Spliced (start + a.length) rewrites' b b') :
    Spliced start (rewrites ++ rewrites') (a ++ b) (a' ++ b') := by
  induction h with
  | done start text => exact h'.keep text
  | @replace start r more text out kept place _ ih =>
    have hlength : start + (kept ++ (r.literal.spelling ++ text)).length =
        r.literal.stop + text.length := by
      rw [List.length_append, List.length_append, length_spelling, Literal.stop, place]
      omega
    have hmore := ih (hlength ▸ h')
    simp only [List.append_assoc, List.cons_append]
    exact .replace kept place hmore

/-! ## When literals can be replaced -/

theorem start_le_of_splice? {start : Nat} {rewrites : List Rewrite} {text : Text}
    (h : (splice? start rewrites text).isSome) :
    (∀ r ∈ rewrites, start ≤ r.literal.start) ∧ rewrites.Pairwise Rewrite.Before := by
  induction rewrites generalizing start text with
  | nil => simp
  | cons r more ih =>
    unfold splice? at h
    split at h
    · cases h
    · next hle =>
      rw [Option.isSome_map] at h
      obtain ⟨hmore, hpairs⟩ := ih h
      have hstop : r.literal.start ≤ r.literal.stop := by
        rw [Literal.stop]
        omega
      refine ⟨fun r' hr' => ?_, List.Pairwise.cons hmore hpairs⟩
      rcases List.mem_cons.mp hr' with rfl | hr'
      · omega
      · have := hmore r' hr'
        omega

theorem exists_spliced {code front text : Text} {rewrites : List Rewrite}
    (hcode : code = front ++ text) (hstands : ∀ r ∈ rewrites, r.literal.StandsIn code)
    (hstart : ∀ r ∈ rewrites, front.length ≤ r.literal.start)
    (hpairs : rewrites.Pairwise Rewrite.Before) :
    ∃ out, Spliced front.length rewrites text out := by
  induction rewrites generalizing front text with
  | nil => exact ⟨text, .done _ _⟩
  | cons r more ih =>
    obtain ⟨before, behind, hr, hplace⟩ := hstands r List.mem_cons_self
    obtain ⟨hfirst, hpairs⟩ := List.pairwise_cons.mp hpairs
    have hle : front.length ≤ before.length := hplace ▸ hstart r List.mem_cons_self
    -- The literal stands behind what is already done.
    obtain ⟨kept, rfl, rfl⟩ : ∃ kept, before = front ++ kept ∧
        text = kept ++ (r.literal.spelling ++ behind) := by
      have hsplit : front ++ text = before ++ (r.literal.spelling ++ behind) := by
        rw [← hcode, hr, List.append_assoc]
      exact Lists.exists_append_of_length_le hsplit hle
    have hstop : r.literal.stop = (front ++ kept ++ r.literal.spelling).length := by
      rw [List.length_append, length_spelling, hplace, Literal.stop]
      omega
    obtain ⟨out, hout⟩ := ih hr (fun r' hr' => hstands r' (List.mem_cons_of_mem _ hr'))
      (fun r' hr' => hstop ▸ hfirst r' hr') hpairs
    rw [← hstop] at hout
    exact ⟨_, .replace kept (by rw [← hplace, List.length_append]) hout⟩

theorem splice?_isSome_iff {code front text : Text} {rewrites : List Rewrite}
    (hcode : code = front ++ text) (hstands : ∀ r ∈ rewrites, r.literal.StandsIn code) :
    (splice? front.length rewrites text).isSome ↔
      (∀ r ∈ rewrites, front.length ≤ r.literal.start) ∧ rewrites.Pairwise Rewrite.Before := by
  constructor
  · exact start_le_of_splice?
  · rintro ⟨hstart, hpairs⟩
    obtain ⟨out, hout⟩ := exists_spliced hcode hstands hstart hpairs
    rw [hout.splice?]
    rfl

end Document

end AmdBundle
