import AmdBundle.Proofs.Document.Reading
import AmdBundle.Proofs.Document.Splice
import AmdBundle.Proofs.Header.Nesting

/-!
# When all literals can be replaced

A string literal may go on over a line feed behind a backslash. If the next line looks like a header,
it is read as one, although it stands inside a literal of an earlier header. The literals of two such
headers need not come one behind the other.

* `Knotted` : a header begins inside a literal of an earlier one, and a literal of its own that has to
  be replaced begins before one of the earlier header ends; `IsKnotted` : two headers of a text are;
* `replaced_iff_not_knotted` : all literals of a text are replaced exactly if no two headers are
  knotted; otherwise there is no text to return.
-/

set_option autoImplicit false

namespace AmdBundle.Document

/-- The second header begins inside a literal of the first one, and the literals to replace are not
in order. -/
structure Knotted (code : Text) (h h' : Header) : Prop where
  hidden : ∃ l ∈ h.literals, ∃ front rest, Header.OpensAt code front rest ∧
    h'.line = front.count '\n' + 1 ∧ l.Hides front
  early : ∃ r ∈ rewritesOf h, ∃ r' ∈ rewritesOf h', r'.literal.start < r.literal.stop

/-- Two headers of the text are knotted. -/
def IsKnotted (code : Text) : Prop :=
  ∃ headers, Header.scan code = .ok headers ∧
    ∃ h ∈ headers, ∃ h' ∈ headers, h.line < h'.line ∧ Knotted code h h'

/-! ## The literals of one header -/

theorem pairwise_literals_of_scan {code : Text} {headers : List Header}
    (hscan : Header.scan code = .ok headers) {h : Header} (hh : h ∈ headers) :
    h.literals.Pairwise (fun l l' => l.stop ≤ l'.start) := by
  obtain ⟨front, rest, -, s, -, rfl⟩ := (Header.mem_headers_iff hscan).mp hh
  exact s.pairwise_literals _ _

theorem pairwise_rewritesOf {h : Header}
    (hpairs : h.literals.Pairwise (fun l l' => l.stop ≤ l'.start)) :
    (rewritesOf h).Pairwise Rewrite.Before := by
  rw [rewritesOf, List.pairwise_filterMap]
  refine (List.pairwise_cons.mp hpairs).2.imp ?_
  intro l l' hle r hr r' hr'
  obtain ⟨k, -, rfl⟩ := Option.map_eq_some_iff.mp hr
  obtain ⟨k', -, rfl⟩ := Option.map_eq_some_iff.mp hr'
  exact hle

theorem mem_literals_of_mem_rewritesOf {h : Header} {r : Rewrite} (hr : r ∈ rewritesOf h) :
    r.literal ∈ h.literals :=
  List.mem_cons_of_mem _ (mem_rewritesOf_iff.mp hr).1

theorem standsIn_of_mem_allRewrites {code : Text} {headers : List Header}
    (hscan : Header.scan code = .ok headers) {r : Rewrite} (hr : r ∈ allRewrites headers) :
    r.literal.StandsIn code := by
  obtain ⟨h, hh, hr⟩ := List.mem_flatMap.mp hr
  obtain ⟨front, rest, hopens, s, hs, rfl⟩ := (Header.mem_headers_iff hscan).mp hh
  exact Header.Shape.standsIn_of_mem_literals hopens.split hs (mem_literals_of_mem_rewritesOf hr)

/-! ## The literals of all headers -/

/-- Two headers of a text have their literals in order exactly if they are not knotted. -/
theorem before_iff_not_knotted {code : Text} {headers : List Header}
    (hscan : Header.scan code = .ok headers) {h h' : Header} (hh : h ∈ headers) (hh' : h' ∈ headers)
    (hlt : h.line < h'.line) :
    (∀ r ∈ rewritesOf h, ∀ r' ∈ rewritesOf h', r.Before r') ↔ ¬ Knotted code h h' := by
  constructor
  · rintro hbefore ⟨-, r, hr, r', hr', hearly⟩
    exact absurd (hbefore r hr r' hr') (Nat.not_le_of_lt hearly)
  · intro hknot r hr r' hr'
    rcases Header.hides_or_before hscan hh hh' hlt with hbefore | hhidden
    · exact hbefore _ (mem_literals_of_mem_rewritesOf hr) _ (mem_literals_of_mem_rewritesOf hr')
    · by_contra hle
      exact hknot ⟨hhidden, r, hr, r', hr', Nat.lt_of_not_le hle⟩

theorem pairwise_allRewrites_iff {code : Text} {headers : List Header}
    (hscan : Header.scan code = .ok headers) :
    (allRewrites headers).Pairwise Rewrite.Before ↔
      ¬ ∃ h ∈ headers, ∃ h' ∈ headers, h.line < h'.line ∧ Knotted code h h' := by
  rw [allRewrites, List.pairwise_flatMap,
    Lists.pairwise_iff_of_sorted (Header.pairwise_line_of_scan hscan)]
  constructor
  · rintro ⟨-, hall⟩ ⟨h, hh, h', hh', hlt, hknot⟩
    exact (before_iff_not_knotted hscan hh hh' hlt).mp (hall h hh h' hh' hlt) hknot
  · intro hnone
    refine ⟨fun h hh => pairwise_rewritesOf (pairwise_literals_of_scan hscan hh), ?_⟩
    intro h hh h' hh' hlt
    refine (before_iff_not_knotted hscan hh hh' hlt).mpr fun hknot => ?_
    exact hnone ⟨h, hh, h', hh', hlt, hknot⟩

theorem remap?_eq_none_iff {code : Text} {doc : Document} {headers : List Header}
    (hread : read code = .ok doc) (hscan : Header.scan code = .ok headers) : doc.remap? code = none ↔
      ∃ h ∈ headers, ∃ h' ∈ headers, h.line < h'.line ∧ Knotted code h h' := by
  obtain ⟨headers', hscan', hdoc⟩ := read_eq_ok_iff.mp hread
  obtain rfl := Except.ok.inj (hscan.symm.trans hscan')
  obtain ⟨-, hrewrites, -, -⟩ := eq_of_ofHeaders hdoc
  have hstands : ∀ r ∈ doc.rewrites, r.literal.StandsIn code := fun r hr =>
    standsIn_of_mem_allRewrites hscan (hrewrites ▸ hr)
  have hsome : (doc.remap? code).isSome ↔ doc.rewrites.Pairwise Rewrite.Before := by
    simpa [remap?] using splice?_isSome_iff (List.nil_append code).symm hstands
  rw [← Option.not_isSome_iff_eq_none, hsome, hrewrites, pairwise_allRewrites_iff hscan, not_not]

/-- A text is knotted if it is read and its literals cannot be replaced. -/
theorem isKnotted_iff {code : Text} :
    IsKnotted code ↔ ∃ doc, read code = .ok doc ∧ doc.remap? code = none := by
  constructor
  · rintro ⟨headers, hscan, hknot⟩
    obtain ⟨doc, hdoc⟩ := exists_ofHeaders headers
    have hread := read_eq_ok_iff.mpr ⟨headers, hscan, hdoc⟩
    exact ⟨doc, hread, (remap?_eq_none_iff hread hscan).mpr hknot⟩
  · rintro ⟨doc, hread, hnone⟩
    obtain ⟨headers, hscan, -⟩ := read_eq_ok_iff.mp hread
    exact ⟨headers, hscan, (remap?_eq_none_iff hread hscan).mp hnone⟩

/-- **Replacing literals.** The literals to replace stand in the text. They come one behind the other
and each is replaced once exactly if no header is knotted with a later one; if two are, the text
cannot be put together. -/
theorem replaced_iff_not_knotted {code : Text} {doc : Document} (h : read code = .ok doc) :
    ∃ headers, Header.scan code = .ok headers ∧
      (∀ r ∈ doc.rewrites, r.literal.StandsIn code) ∧
      ((doc.rewrites.Pairwise Rewrite.Before ∧
          ∃ out, doc.remap? code = some out ∧ Spliced 0 doc.rewrites code out) ↔
        ¬ ∃ h ∈ headers, ∃ h' ∈ headers, h.line < h'.line ∧ Knotted code h h') ∧
      (doc.remap? code = none ↔
        ∃ h ∈ headers, ∃ h' ∈ headers, h.line < h'.line ∧ Knotted code h h') := by
  obtain ⟨headers, hscan, hdoc⟩ := read_eq_ok_iff.mp h
  obtain ⟨-, hrewrites, -, -⟩ := eq_of_ofHeaders hdoc
  have hstands : ∀ r ∈ doc.rewrites, r.literal.StandsIn code := by
    intro r hr
    exact standsIn_of_mem_allRewrites hscan (hrewrites ▸ hr)
  refine ⟨headers, hscan, hstands, ?_, remap?_eq_none_iff h hscan⟩
  rw [← pairwise_allRewrites_iff hscan, ← hrewrites]
  refine ⟨And.left, fun hordered => ⟨hordered, ?_⟩⟩
  obtain ⟨out, hout⟩ :=
    exists_spliced (List.nil_append code).symm hstands (fun _ _ => Nat.zero_le _) hordered
  exact ⟨out, hout.splice?, hout⟩

/-- A header on the second line, inside the first dependency of the header on the first line. -/
def knot : Text :=
  "define(\"m\", [\"\\\ndefine('n', ['text!./x'], function\", \"text!./y\"], function".toList

/-- The literals of the knot are found, but out of order. -/
theorem knot_not_replaced :
    ∃ doc, read knot = .ok doc ∧ doc.remap? knot = none ∧
      doc.rewrites.map Rewrite.spelling = ["\"text!y\"".toList, "'text!x'".toList] ∧
      ∃ headers, Header.scan knot = .ok headers ∧
        ∃ h ∈ headers, ∃ h' ∈ headers, h.line < h'.line ∧ Knotted knot h h' := by
  obtain ⟨doc, hdoc⟩ : ∃ doc, read knot = .ok doc := Outcome.exists_eq_ok (by decide +kernel)
  have hremap : (read knot).map (fun doc => doc.remap? knot) = .ok none := by decide +kernel
  have hspelled : (read knot).map (fun doc => doc.rewrites.map Rewrite.spelling) =
      .ok ["\"text!y\"".toList, "'text!x'".toList] := by decide +kernel
  have hnone := Outcome.eq_of_map_eq_ok hdoc hremap
  have hqueue := Outcome.eq_of_map_eq_ok hdoc hspelled
  obtain ⟨headers, hscan, -, -, hknotted⟩ := replaced_iff_not_knotted hdoc
  exact ⟨doc, hdoc, hnone, hqueue, headers, hscan, hknotted.mp hnone⟩

end AmdBundle.Document
