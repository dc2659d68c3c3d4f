import AmdBundle.Proofs.Bundle.Outcomes
import AmdBundle.Proofs.Document.Knots

/-!
# Why a text is not bundled

A file that is missing or that does not hold what its directive asks for never stops a bundle: its
module gets a fixed value. So the files and the options have no say in whether a text is bundled.

* `read_eq_error_iff` : every key names a resource, so only a malformed header stops the reader;
* `exists_remap` : its literals can be replaced if none of them goes on over a line feed, since a header
  can hide only behind one;
* `bundle_ne_none` : so something comes of bundling it;
* `fails_iff_malformed` : then the errors are those of the scanner, and no others.
-/

set_option autoImplicit false

namespace AmdBundle

/-! ## Literals on one line -/

/-- No string literal of a header holds a line feed. -/
def Header.OnOneLine (code : Text) : Prop :=
  ∀ headers, Header.scan code = .ok headers →
    ∀ h ∈ headers, ∀ l ∈ h.literals, '\n' ∉ l.content

/-- A character inside a literal of a text is one of its own. -/
theorem Literal.StandsIn.mem_spelling {l : Literal} {code front rest : Text} {c : Char}
    (hstands : l.StandsIn code) (hcode : code = front ++ c :: rest) (hstart : l.start ≤ front.length)
    (hstop : front.length < l.stop) : c ∈ l.spelling := by
  obtain ⟨before, behind, hsplit, hplace⟩ := hstands
  have hlength : l.spelling.length = l.content.length + 2 := by simp [Literal.spelling]
  -- The text falls into what stands before the literal, a part of it, the character, and the rest.
  obtain ⟨part, rfl, hpart⟩ : ∃ part, front = before ++ part ∧
      l.spelling ++ behind = part ++ c :: rest :=
    Lists.exists_append_of_length_le (by rw [← List.append_assoc, ← hsplit, hcode])
      (by rw [hplace]; exact hstart)
  have hlt : part.length < l.spelling.length := by
    rw [List.length_append, hplace, Literal.stop] at hstop
    omega
  obtain ⟨more, hspelling, hmore⟩ := Lists.exists_append_of_length_le hpart.symm hlt.le
  cases more with
  | nil => simp [hspelling] at hlt
  | cons d more =>
    rw [hspelling, (List.cons.inj hmore).1]
    simp

theorem Literal.StandsIn.not_hides {l : Literal} {code front rest : Text}
    (hstands : l.StandsIn code) (hcode : code = front ++ rest) (hfeed : '\n' ∉ l.spelling) :
    ¬ l.Hides front := by
  rintro ⟨hstart, hstop, t, rfl⟩
  have hcut : code = (t ++ ['\\']) ++ '\n' :: rest := by simp [hcode]
  refine hfeed (hstands.mem_spelling hcut ?_ ?_)
  · simp at hstart ⊢
    omega
  · simp at hstop ⊢
    omega

namespace Header

theorem not_mem_spelling_of_onOneLine {code : Text} {headers : List Header} (hline : OnOneLine code)
    (hscan : scan code = .ok headers) {h : Header} (hh : h ∈ headers) {l : Literal}
    (hl : l ∈ h.literals) : '\n' ∉ l.spelling := by
  have hcontent := hline headers hscan h hh l hl
  have hquote : '\n' ≠ l.quote := by
    rcases quote_eq_of_scan hscan hh hl with hq | hq <;> rw [hq] <;> decide
  simp [Literal.spelling, hcontent, hquote]

/-- A header inside a literal would have to follow a line feed. -/
theorem not_hides_of_onOneLine {code front rest : Text} {headers : List Header}
    (hline : OnOneLine code) (hscan : scan code = .ok headers) {h : Header} (hh : h ∈ headers)
    {l : Literal} (hl : l ∈ h.literals) (hcode : code = front ++ rest) : ¬ l.Hides front := by
  have hfeed := not_mem_spelling_of_onOneLine hline hscan hh hl
  obtain ⟨_, _, hopens, s, hs, rfl⟩ := (mem_headers_iff hscan).mp hh
  exact (Shape.standsIn_of_mem_literals hopens.split hs hl).not_hides hcode hfeed

end Header

/-! ## What stops the reader -/

namespace Document

theorem read_eq_error_iff {code : Text} {e : BundleError} :
    read code = .error e ↔ ∃ m, Header.scan code = .error m ∧ e = .ofMalformed m := by
  unfold read
  cases hscan : Header.scan code with
  | error m => simp [eq_comm]
  | ok headers =>
    obtain ⟨doc, hdoc⟩ := exists_ofHeaders headers
    simp [hdoc]

/-- All literals of a text can be replaced if its headers do not hide one another. -/
theorem exists_remap {code : Text} {doc : Document} (hline : Header.OnOneLine code)
    (hread : read code = .ok doc) : ∃ out, doc.remap? code = some out := by
  obtain ⟨headers, hscan, hdoc⟩ := read_eq_ok_iff.mp hread
  have hordered : (allRewrites headers).Pairwise Rewrite.Before := by
    rw [pairwise_allRewrites_iff hscan]
    rintro ⟨h, hh, h', hh', hlt, ⟨l, hl, front, rest, hopens, -, hhides⟩, -⟩
    exact Header.not_hides_of_onOneLine hline hscan hh hl hopens.split hhides
  obtain ⟨-, hrewrites, -, -⟩ := eq_of_ofHeaders hdoc
  obtain ⟨out, hout⟩ := exists_spliced (List.nil_append code).symm
    (fun r hr => standsIn_of_mem_allRewrites hscan hr) (fun _ _ => Nat.zero_le _) hordered
  exact ⟨out, by rw [remap?, hrewrites]; exact hout.splice?⟩

end Document

/-! ## What stops a bundle -/

/-- Something comes of every text whose literals stay on their line. -/
theorem Fragment.inject_ne_none {code : Text} (hline : Header.OnOneLine code) (fs : FileTree)
    (root : Path) : inject fs root code ≠ none := by
  intro hnone
  obtain ⟨doc, hread, hremap⟩ := inject_eq_none_iff.mp hnone
  obtain ⟨out, hout⟩ := Document.exists_remap hline hread
  rw [hout] at hremap
  cases hremap

theorem bundle_ne_none {code : Text} (hline : Header.OnOneLine code) (fs : FileTree)
    (o : BundleOptions) : bundle fs o code ≠ none :=
  fun hnone => Fragment.inject_ne_none hline fs o.projectRoot (Option.map_eq_none_iff.mp hnone)

/-- A pass over a text ends, and its errors are those of the scan: there are no others. -/
structure FailsAsScanned {α : Type} (code : Text) (outcome : Option (Except BundleError α)) : Prop where
  ends : outcome ≠ none
  fails_iff : (∃ e, outcome = some (.error e)) ↔ ∃ m, Header.scan code = .error m
  error_of_scan : ∀ m, Header.scan code = .error m → outcome = some (.error (.ofMalformed m))
  no_directive : ∀ spelling, outcome ≠ some (.error (.unknownDirective spelling))
  no_json : ∀ reason, outcome ≠ some (.error (.json reason))

theorem failsAsScanned_of_read {α : Type} {code : Text} {outcome : Option (Except BundleError α)}
    (hends : outcome ≠ none) (h : ∀ e, outcome = some (.error e) ↔ Document.read code = .error e) :
    FailsAsScanned code outcome := by
  have herror : ∀ e, outcome = some (.error e) ↔
      ∃ m, Header.scan code = .error m ∧ e = .ofMalformed m :=
    fun e => (h e).trans Document.read_eq_error_iff
  refine ⟨hends, ⟨?_, ?_⟩, fun m hm => (herror _).mpr ⟨m, hm, rfl⟩, fun spelling hout => ?_,
    fun reason hout => ?_⟩
  · rintro ⟨e, he⟩
    obtain ⟨m, hm, -⟩ := (herror e).mp he
    exact ⟨m, hm⟩
  · rintro ⟨m, hm⟩
    exact ⟨_, (herror _).mpr ⟨m, hm, rfl⟩⟩
  · obtain ⟨m, -, hm⟩ := (herror _).mp hout
    cases hm
  · obtain ⟨m, -, hm⟩ := (herror _).mp hout
    cases hm

/-- **Files never stop a bundle.** Whatever the files hold, a text whose literals stay on their line
is read, gets its fragments and is bundled exactly if it is scanned; otherwise each of the three
returns the malformed header. -/
theorem fails_iff_malformed {code : Text} (hline : Header.OnOneLine code) (fs : FileTree) :
    FailsAsScanned code (some (Document.read code)) ∧
      (∀ root, FailsAsScanned code (Fragment.inject fs root code)) ∧
      ∀ o, FailsAsScanned code (bundle fs o code) := by
  refine ⟨?_, fun root => ?_, fun o => ?_⟩
  · exact failsAsScanned_of_read (Option.some_ne_none _) fun e => by rw [Option.some.injEq]
  · exact failsAsScanned_of_read (Fragment.inject_ne_none hline fs root) fun e =>
      Fragment.inject_eq_error_iff
  · exact failsAsScanned_of_read (bundle_ne_none hline fs o) fun e => bundle_eq_error_iff

/-- A file that is no text, a file that is no JSON, a folder, and a stylesheet that imports itself. -/
def brokenFiles : FileTree where
  entries :=
    [(["latin".toList], .file [0xe9]), (["broken".toList], .file [0x7b]),
      (["folder".toList], .folder), (["loop.css".toList], .file (Text.encode "@import 'loop.css';".toList))]
  current := []

/-- A module that depends on each of them, and on a file that is missing. -/
def brokenModule : Text :=
  ("define(\"m\", [\"text!./latin\", \"json!./broken\", \"buffer!./folder\", \"css!./loop.css\",\n" ++
    "  'base64!./missing'], function () \x7b\n\x7d);\n").toList

theorem fails_iff_malformed_broken_files :
    Header.OnOneLine brokenModule ∧ ∃ output, bundle brokenFiles .default brokenModule = some (.ok output) := by
  obtain ⟨headers, hscan⟩ : ∃ headers, Header.scan brokenModule = .ok headers :=
    Outcome.exists_eq_ok (by decide +kernel)
  have hcheck : (Header.scan brokenModule).map (fun headers =>
      headers.all fun h => h.literals.all fun l => !l.content.contains '\n') = .ok true := by
    decide +kernel
  have hline : Header.OnOneLine brokenModule := by
    intro headers' hscan' h hh l hl
    have hall := Outcome.eq_of_map_eq_ok hscan' hcheck
    simpa using List.all_eq_true.mp (List.all_eq_true.mp hall h hh) l hl
  refine ⟨hline, ?_⟩
  obtain ⟨hends, hfails, -, -, -⟩ := (fails_iff_malformed hline brokenFiles).2.2 .default
  cases hbundle : bundle brokenFiles .default brokenModule with
  | none => exact absurd hbundle hends
  | some outcome =>
    cases outcome with
    | ok output => exact ⟨output, rfl⟩
    | error e =>
      obtain ⟨m, hm⟩ := hfails.mp ⟨e, hbundle⟩
      rw [hscan] at hm
      cases hm

end AmdBundle
