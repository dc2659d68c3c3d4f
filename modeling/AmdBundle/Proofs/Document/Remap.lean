import AmdBundle.Proofs.Document.Relink
import AmdBundle.Proofs.Header.Outline

/-!
# A text with keys in place of its resources

`scan_remap` : if no literal of a header has a backslash or a quote, then the text with the keys in
place of the resources has the same headers, on the same lines and with the same names, and their
dependencies are the keys. Everything outside the replaced literals is kept.

The text is cut at its headers and every header gets its keys. This does not move a line feed and
does not touch the text between headers, so the result is again a text cut at its headers.
-/

set_option autoImplicit false

namespace AmdBundle

namespace Header
open Document

/-! ## Sections with keys -/

def Section.relink (s : Section) : Section :=
  { s with header := s.header.relink }

theorem Section.count_text_relink {s : Section} (h : s.header.Bare) :
    s.relink.text.count '\n' = s.text.count '\n' := by
  show (s.header.relink.text ++ s.behind).count '\n' = (s.header.text ++ s.behind).count '\n'
  rw [List.count_append, List.count_append, Shape.count_text_relink h]

section
variable {gap : Text} {sections : List Section}

theorem Cut.relink (h : Cut gap sections) : Cut gap (sections.map Section.relink) := by
  induction h with
  | last quiet => exact .last quiet
  | more quiet ends opens bare boundary _ ih =>
    exact .more quiet ends opens (Shape.bare_relink bare) boundary ih

theorem Cut.forall₂_relinked (h : Cut gap sections) (line start start' : Nat) :
    List.Forall₂ Relinked (headersOf line start sections)
      (headersOf line start' (sections.map Section.relink)) := by
  induction h generalizing line start start' with
  | last => exact .nil
  | @more gap s sections _ _ _ bare _ _ ih =>
    rw [List.map_cons, headersOf, headersOf, Section.count_text_relink bare]
    exact .cons (Shape.relinked bare line start start') (ih _ _ _)

/-- The sections with their keys are the sections with their literals replaced. -/
theorem Cut.spliced (h : Cut gap sections) (line start : Nat) :
    Spliced start (allRewrites (headersOf line start sections)) (textOf sections)
      (textOf (sections.map Section.relink)) := by
  induction h generalizing line start with
  | last => exact .done start []
  | @more gap s sections _ _ _ bare _ _ ih =>
    have hheader := Shape.spliced_relink bare line start
    have hmore := ih (line + s.text.count '\n') (start + s.text.length)
    rw [show s.text.length = s.header.text.length + s.behind.length from List.length_append,
      ← Nat.add_assoc] at hmore
    have hall := hheader.append (hmore.keep s.behind)
    rw [List.map_cons, textOf_cons, textOf_cons, headersOf, allRewrites, List.flatMap_cons]
    rw [show s.text.length = s.header.text.length + s.behind.length from List.length_append,
      ← Nat.add_assoc]
    exact hall

end

/-! ## A text cut at its headers -/

theorem exists_cut_of_scan {code : Text} {headers : List Header} (hscan : scan code = .ok headers)
    (hplain : ∀ h ∈ headers, ∀ l ∈ h.literals, l.Plain) :
    ∃ front sections, code = front ++ textOf sections ∧ Cut ('\n' :: front) sections := by
  have hall : ∀ u v, '\n' :: code = u ++ '\n' :: v → opens v = true →
      ∃ s : Shape, s.Starts v ∧ s.Bare := by
    intro u v hcode hopens
    obtain ⟨front, hopensAt, -⟩ : ∃ front, OpensAt code front v ∧ _ := mem_openings_iff.mp
      (List.mem_filter.mpr ⟨Text.mem_laterLines_iff.mpr ⟨u, hcode, rfl⟩, hopens⟩)
    obtain ⟨s, hs⟩ := exists_header_of_scan hscan hopensAt
    have hmem := (mem_headers_iff hscan).mpr ⟨front, v, hopensAt, s, hs, rfl⟩
    exact ⟨s, hs, Shape.bare_of_plain (hplain _ hmem)⟩
  obtain ⟨gap, sections, hcode, hcut⟩ := exists_cut ('\n' :: code) hall
  -- The first line of the text begins behind the line feed that was put in front of it.
  cases gap with
  | nil =>
    cases hcut with
    | last => cases hcode
    | more _ ends => cases ends
  | cons c front =>
    obtain ⟨rfl, rfl⟩ := List.cons.inj hcode
    exact ⟨front, sections, rfl, hcut⟩

end Header

namespace Document
open Header

/-- **Remapping keeps the headers.** If no literal of a header has a backslash or a quote, the
literals of a text can be replaced, and scanning the result finds the same headers with keys in place
of resources. All else is kept as it is. -/
theorem scan_remap {code : Text} {doc : Document} {headers : List Header}
    (hread : read code = .ok doc) (hscan : scan code = .ok headers)
    (hplain : ∀ h ∈ headers, ∀ l ∈ h.literals, ∀ c ∈ l.content, c ≠ '\\' ∧ c ≠ '"' ∧ c ≠ '\'') :
    ∃ out headers', doc.remap? code = some out ∧ scan out = .ok headers' ∧
      List.Forall₂ Relinked headers headers' ∧ Spliced 0 (allRewrites headers) code out := by
  obtain ⟨headers', hscan', hdoc⟩ := read_eq_ok_iff.mp hread
  obtain rfl : headers' = headers := Except.ok.inj (hscan'.symm.trans hscan)
  obtain ⟨-, hrewrites, -, -⟩ := eq_of_ofHeaders hdoc
  obtain ⟨front, sections, rfl, hcut⟩ := exists_cut_of_scan hscan hplain
  obtain rfl : _ = headers' := Except.ok.inj (hcut.scan.symm.trans hscan)
  have hspliced := (hcut.spliced (front.count '\n' + 1) (0 + front.length)).keep front
  rw [Nat.zero_add] at hspliced
  refine ⟨_, _, ?_, hcut.relink.scan, hcut.forall₂_relinked _ _ _, hspliced⟩
  rw [remap?, hrewrites]
  exact hspliced.splice?

/-- Two headers in which one token means files in two folders, and a body with the same token. -/
def twoFolders : Text :=
  "define(\"a/m\", [\n \"text!./n\"],\n function\n 'text!./n'\ndefine('b', ['text!./n'], function".toList

theorem scan_remap_two_folders :
    ∃ doc headers out headers', read twoFolders = .ok doc ∧ scan twoFolders = .ok headers ∧
      doc.rewrites.map Rewrite.spelling = ["\"text!a/n\"".toList, "'text!n'".toList] ∧
      doc.remap? twoFolders = some out ∧ scan out = .ok headers' ∧
      List.Forall₂ Relinked headers headers' ∧ Spliced 0 (allRewrites headers) twoFolders out := by
  obtain ⟨doc, hread⟩ : ∃ doc, read twoFolders = .ok doc := Outcome.exists_eq_ok (by decide +kernel)
  obtain ⟨headers, hscan⟩ : ∃ headers, scan twoFolders = .ok headers :=
    Outcome.exists_eq_ok (by decide +kernel)
  have hspelled : (read twoFolders).map (fun doc => doc.rewrites.map Rewrite.spelling) =
      .ok ["\"text!a/n\"".toList, "'text!n'".toList] := by decide +kernel
  have hplain : (scan twoFolders).map (fun headers => decide (∀ h ∈ headers, ∀ l ∈ h.literals,
      l.Plain)) = .ok true := by decide +kernel
  have hqueue := Outcome.eq_of_map_eq_ok hread hspelled
  have hchecked := Outcome.eq_of_map_eq_ok hscan hplain
  have hescapes := of_decide_eq_true hchecked
  obtain ⟨out, headers', hremap, hscan', hall, hspliced⟩ := scan_remap hread hscan hescapes
  exact ⟨doc, headers, out, headers', hread, hscan, hqueue, hremap, hscan', hall, hspliced⟩

end Document

end AmdBundle
