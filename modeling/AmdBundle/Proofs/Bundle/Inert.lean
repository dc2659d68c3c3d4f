import AmdBundle.Proofs.Bundle.Marked
import AmdBundle.Proofs.Header.Outline
import AmdBundle.Proofs.Text.Indent
import AmdBundle.Proofs.Text.Quoted

/-!
# Bundles are inert

Everything inside the loader stands to the right, and the lines of the loader itself are its own, up
to the name of the exports and the expression for the first module. So no line of a bundle opens a
module, whatever the modules and their resources are.

* `Header.Tame` : no line of a text begins with the first letter of `define`; `scan_of_tame` : then
  it has no headers;
* `Loader.tame_wrap` : bundles are such texts;
* `IsInert`, `inert_of_bundle` : the bundler leaves bundles as they are.
-/

set_option autoImplicit false

namespace AmdBundle

/-! ## Texts without headers -/

namespace Header

/-- No line of the text begins with the first letter of `define`. -/
def Tame (text : Text) : Prop :=
  ∀ u v, '\n' :: text = u ++ '\n' :: v → v.head? ≠ some 'd'

/-- A line that does not begin with that letter. -/
def TameLine (line : Text) : Prop :=
  '\n' ∉ line ∧ line.head? ≠ some 'd'

instance (line : Text) : Decidable (TameLine line) :=
  inferInstanceAs (Decidable (_ ∧ _))

theorem Tame.quiet {text : Text} (h : Tame text) : Quiet ('\n' :: text) := by
  intro u v htext
  refine Bool.eq_false_iff.mpr fun hopens => h u v htext ?_
  obtain ⟨gap, tail, -, rfl⟩ := opens_eq_true_iff.mp hopens
  rfl

theorem scan_of_tame {text : Text} (h : Tame text) : scan text = .ok [] := by
  have hscan := Cut.scan (.last h.quiet)
  rwa [textOf_nil, List.append_nil] at hscan

/-- A text is tame if its first line is, up to where another tame text goes on. -/
theorem tame_append {a b : Text} (hfeed : '\n' ∉ a) (hhead : (a ++ b).head? ≠ some 'd')
    (hb : Tame b) : Tame (a ++ b) := by
  intro u v htext
  cases u with
  | nil =>
    obtain rfl := (List.cons.inj htext).2
    exact hhead
  | cons c u =>
    rcases List.append_eq_append_iff.mp (List.cons.inj htext).2 with
      ⟨mid, rfl, hrest⟩ | ⟨mid, rfl, hmid⟩
    · exact hb ('\n' :: mid) v (by rw [hrest, List.cons_append])
    · cases mid with
      | nil => exact hb ['\n'] v (by simpa using hmid.symm)
      | cons d mid =>
        obtain rfl : '\n' = d := (List.cons.inj hmid).1
        exact absurd (by simp) hfeed

theorem tame_nil : Tame [] := by
  intro u v htext
  cases u with
  | nil =>
    obtain rfl := (List.cons.inj htext).2
    simp
  | cons c u => simp at htext

theorem TameLine.tame {line : Text} (h : TameLine line) : Tame line := by
  have hline := tame_append h.1 (b := []) (by simpa using h.2) tame_nil
  rwa [List.append_nil] at hline

theorem tame_append_feed {a b : Text} (ha : Tame a) (hb : Tame b) : Tame (a ++ '\n' :: b) := by
  intro u v htext
  rw [← List.cons_append] at htext
  rcases List.append_eq_append_iff.mp htext with ⟨mid, rfl, hrest⟩ | ⟨mid, hfront, hmid⟩
  · exact hb mid v hrest
  · cases mid with
    | nil => exact hb [] v hmid.symm
    | cons c mid =>
      -- The line begins in `a`, and what stands behind its end does not matter.
      obtain ⟨rfl, rfl⟩ := List.cons.inj hmid
      have hmid := ha u mid hfront
      cases mid with
      | nil => simp
      | cons d mid => exact hmid

theorem tame_intercalate {parts : List Text} (h : ∀ part ∈ parts, Tame part) :
    Tame (['\n'].intercalate parts) := by
  induction parts with
  | nil => exact tame_nil
  | cons first more ih =>
    obtain ⟨hfirst, hmore⟩ := List.forall_mem_cons.mp h
    cases more with
    | nil => rwa [List.intercalate_singleton]
    | cons second more =>
      rw [List.intercalate_cons_cons, List.append_assoc]
      exact tame_append_feed hfirst (ih hmore)

/-- No line of a text that was moved to the right begins with a letter. -/
theorem tame_indent {k : Nat} (hk : k ≠ 0) (text : Text) : Tame (Text.indent (Text.spaces k) text) := by
  obtain ⟨k, rfl⟩ := Nat.exists_eq_succ_of_ne_zero hk
  refine tame_intercalate fun part hpart => ?_
  obtain ⟨line, hline, rfl⟩ := List.mem_map.mp hpart
  have hfeed : '\n' ∉ line := Lists.not_mem_of_mem_splitOn hline
  refine TameLine.tame ⟨by simp [Text.spaces, hfeed], ?_⟩
  simp [Text.spaces, List.replicate_succ]

end Header

/-! ## The lines of the loader -/

namespace Capabilities
variable (c : Capabilities)

/-- The spellings that depend on a target stand within a line. -/
theorem feed_not_mem : '\n' ∉ c.fixed.toList ∧ '\n' ∉ c.changing.toList ∧
    '\n' ∉ c.exportsFunction.toList ∧ '\n' ∉ c.catchClause.toList ∧ '\n' ∉ c.invocation.toList := by
  refine ⟨?_, ?_, ?_, ?_, ?_⟩
  all_goals
    simp only [fixed, changing, exportsFunction, catchClause, invocation]
    split <;> decide

end Capabilities

namespace Loader
open Header (Tame TameLine)

theorem tame_joined {lines : List String} (h : ∀ line ∈ lines, TameLine line.toList) :
    Tame (joined lines) := by
  refine Header.tame_intercalate fun part hpart => ?_
  obtain ⟨line, hline, rfl⟩ := List.mem_map.mp hpart
  exact (h line hline).tame

section
variable (c : Capabilities)

-- `decide` would compute the characters of each line from its bytes; `simp` reads them off.

theorem tameLine_opening : ∀ line ∈ opening c, TameLine line.toList := by
  simp only [opening, List.forall_mem_cons, TameLine, String.toList_append]
  repeat rw [String.toList_ofList]
  simp [c.feed_not_mem]

theorem tameLine_setDefault : ∀ line ∈ setDefault c, TameLine line.toList := by
  unfold setDefault
  split
  all_goals
    simp only [List.forall_mem_cons, TameLine]
    repeat rw [String.toList_ofList]
    simp

theorem tameLine_defining : ∀ line ∈ defining c, TameLine line.toList := by
  simp only [defining, List.forall_mem_cons, TameLine, String.toList_append]
  repeat rw [String.toList_ofList]
  simp [c.feed_not_mem]

theorem tameLine_finding : ∀ line ∈ finding c, TameLine line.toList := by
  simp only [finding, List.forall_mem_cons, TameLine, String.toList_append]
  repeat rw [String.toList_ofList]
  simp [c.feed_not_mem]

theorem tameLine_resolving : ∀ line ∈ resolving c, TameLine line.toList := by
  simp only [resolving, List.forall_mem_cons, TameLine, String.toList_append]
  repeat rw [String.toList_ofList]
  simp [c.feed_not_mem]

theorem tame_header : Tame (header c) := by
  refine tame_joined fun line hline => ?_
  rcases List.mem_append.mp hline with hline | hline
  · rcases List.mem_append.mp hline with hline | hline
    · exact tameLine_opening c line hline
    · exact tameLine_setDefault c line hline
  · exact tameLine_defining c line hline

end

theorem feed_not_mem_entryExpression (entryPoint : Option Text) :
    '\n' ∉ entryExpression entryPoint := by
  cases entryPoint with
  | none => decide
  | some name => exact Text.feed_not_mem_quote name

theorem tameLine_starting {entry : Text} (hentry : '\n' ∉ entry) :
    ∀ line ∈ starting (String.ofList entry), TameLine line.toList := by
  simp [starting, TameLine, hentry]

theorem tame_bottom (o : LoaderOptions) : Tame (bottom o) := by
  have hentry := tameLine_starting (feed_not_mem_entryExpression o.entryPoint)
  refine tame_joined fun line hline => ?_
  simp only [List.mem_append, List.mem_singleton] at hline
  rcases hline with (((hline | rfl) | hline) | rfl) | hline
  · exact tameLine_finding o.target.capabilities line hline
  · decide
  · exact tameLine_resolving o.target.capabilities line hline
  · decide
  · exact hentry line hline

/-- The exports go to a name that is written on one line. -/
def OneLineExport (exportAs : ExportAs) : Prop :=
  ∀ name, exportAs = .global name → '\n' ∉ name

theorem feed_not_mem_assignment {exportAs : ExportAs} (h : OneLineExport exportAs) :
    '\n' ∉ assignment exportAs := by
  unfold assignment
  cases exportAs with
  | nowhere => simp
  | commonJs => decide
  | global name => simp [h name rfl]

theorem head?_top (o : LoaderOptions) : (top o).head? ≠ some 'd' := by
  have hheader : (header o.target.capabilities).head? = some '(' := by
    cases o.target <;> rfl
  unfold top assignment
  cases o.exportAs with
  | nowhere => simp [hheader]
  | commonJs => simp
  | global name => simp

theorem tame_top {o : LoaderOptions} (h : OneLineExport o.exportAs) : Tame (top o) :=
  Header.tame_append (feed_not_mem_assignment h) (head?_top o) (tame_header o.target.capabilities)

theorem tame_wrap {o : LoaderOptions} (h : OneLineExport o.exportAs) (code : Text) :
    Tame (wrap o code) := by
  refine Header.tame_intercalate fun part hpart => ?_
  simp only [List.mem_cons, List.not_mem_nil, or_false] at hpart
  rcases hpart with rfl | rfl | rfl
  · exact tame_top h
  · exact Header.tame_indent (k := 4) (by decide) (body o code)
  · exact tame_bottom o

end Loader

/-! ## Bundles -/

/-- A text in which nothing is left to bundle. -/
structure IsInert (text : Text) : Prop where
  isBundle : isBundle text = true
  scan : Header.scan text = .ok []
  read : Document.read text = .ok ⟨[], [], [], []⟩
  inject : ∀ fs root, Fragment.inject fs root text = some (.ok text)

theorem isInert_of_tame {text : Text} (hknown : isBundle text = true) (h : Header.Tame text) :
    IsInert text := by
  have hscan := Header.scan_of_tame h
  have hread : Document.read text = .ok ⟨[], [], [], []⟩ := by
    rw [Document.read, hscan]
    rfl
  refine ⟨hknown, hscan, hread, fun fs root => ?_⟩
  simp [Fragment.inject, hread, Document.remap?, Document.splice?]

/-- **Bundles are inert.** A bundle is known as one, and there is no header in it and so nothing to
replace or to load, whatever the modules, the resources and the options are. -/
theorem inert_of_bundle {fs : FileTree} {o : BundleOptions} {code out : Text}
    (hname : Loader.OneLineExport o.exportAs) (h : bundle fs o code = some (.ok out)) :
    IsInert out := by
  have hknown := isBundle_of_bundle h
  obtain ⟨_, _, -, -, rfl⟩ := bundle_eq_ok_iff.mp h
  exact isInert_of_tame hknown (Loader.tame_wrap hname _)

/-- A file with a line that would open a module. -/
def headerFile : FileTree where
  entries := [(["a".toList], .file (Text.encode "\ndefine(".toList))]
  current := []

/-- Options with such lines wherever a line feed can stand. -/
def headerNames : BundleOptions where
  target := .es3
  projectRoot := Path.here
  entryPoint := some "\ndefine(".toList
  exportAs := .global "define(".toList
  importAs := [⟨.byDefault, "\ndefine(".toList, "\ndefine(".toList⟩]

def headerModule : Text :=
  "define(\"m\", [\"text!./a\"], function () \x7b\n\x7d);\n".toList

theorem inert_of_bundle_headers :
    Loader.OneLineExport headerNames.exportAs ∧
      ∃ out, bundle headerFile headerNames headerModule = some (.ok out) ∧ IsInert out := by
  have hname : Loader.OneLineExport headerNames.exportAs := by
    rintro name ⟨⟩
    decide
  obtain ⟨out, hout⟩ := Outcome.exists_eq_some_ok
    (x := bundle headerFile headerNames headerModule) (by decide +kernel)
  exact ⟨hname, out, hout, inert_of_bundle hname hout⟩

end AmdBundle
