import AmdBundle.Proofs.Bundle.Inert
import AmdBundle.Proofs.Loader.Wrap
import AmdBundle.Proofs.Script.Template

/-!
# Template literals in a bundle

The code of a bundle is moved to the right line by line, and so are the lines within its template
literals.

* `wrap_eq_around` : the code, moved to the right, between texts that do not depend on it;
* `templates_of_wrap` : its template literals there;
* `not_keepsTemplates` : one with a line feed is not in the bundle as it was.
-/

set_option autoImplicit false

namespace AmdBundle.Loader
open Script (TemplateAt template)
open Text (shift)

/-- What stands before the code, up to the margin of its first line. -/
def before (o : LoaderOptions) : Text :=
  ['\n'].intercalate (top o :: ((o.importAs.map importModule).map (Text.indent margin) ++ [margin]))

/-- What stands behind the code. -/
def behind (o : LoaderOptions) : Text :=
  '\n' :: ['\n'].intercalate [Text.indent margin marker, bottom o]

theorem wrap_eq_around (o : LoaderOptions) (code : Text) :
    wrap o code = before o ++ (shift 4 code ++ behind o) := by
  have hwrap := wrap_eq o (List.cons_ne_nil code [])
  rw [List.intercalate_singleton] at hwrap
  have hcode : Text.indent margin code = margin ++ shift 4 code := Text.indent_spaces 4 code
  rw [hwrap]
  simp [before, behind, inside, Lists.intercalate_cons, hcode]

/-- **Template literals in a bundle.** Each template literal of the code stands at its place, with four
blanks more behind each of its line feeds and otherwise as it was; so it is the same exactly if it
has no line feed. There are no other ones in the code of the bundle. -/
theorem templates_of_wrap (o : LoaderOptions) (code : Text) :
    (∀ front content rest, TemplateAt code front content rest →
      wrap o code = before o ++ shift 4 front ++ template (shift 4 content) ++
        (shift 4 rest ++ behind o) ∧
      (template (shift 4 content) = template content ↔ '\n' ∉ template content)) ∧
    ∀ front content rest, TemplateAt (shift 4 code) front content rest ↔
      ∃ front' content' rest', TemplateAt code front' content' rest' ∧ front = shift 4 front' ∧
        content = shift 4 content' ∧ rest = shift 4 rest' := by
  refine ⟨fun front content rest h => ⟨?_, ?_⟩, fun front content rest => Script.templateAt_shift_iff⟩
  · rw [wrap_eq_around, (h.shift 4).split]
    simp only [List.append_assoc]
  · rw [← Script.shift_template, Text.shift_eq_self_iff (by decide)]

/-- A template with a substitution, an inner template and line feeds, and backticks around it that
open nothing. -/
def nestedCode : Text :=
  "// \x60\nvar s = '\x60' + \x60a$\x7b \x7b b: \x60c\n\x60 \x7d \x7d\n\x60;".toList

theorem templates_of_wrap_nested :
    TemplateAt nestedCode "// \x60\nvar s = '\x60' + ".toList
        "a$\x7b \x7b b: \x60c\n\x60 \x7d \x7d\n".toList ";".toList ∧
      wrap BundleOptions.default.loader nestedCode =
        before BundleOptions.default.loader ++ "// \x60\n    var s = '\x60' + ".toList ++
          template "a$\x7b \x7b b: \x60c\n    \x60 \x7d \x7d\n    ".toList ++
          (";".toList ++ behind BundleOptions.default.loader) := by
  have htemplate : TemplateAt nestedCode "// \x60\nvar s = '\x60' + ".toList
      "a$\x7b \x7b b: \x60c\n\x60 \x7d \x7d\n".toList ";".toList := by decide +kernel
  exact ⟨htemplate, ((templates_of_wrap _ nestedCode).1 _ _ _ htemplate).1⟩

/-! ## Template literals over several lines -/

/-- The bundle has each template literal of the code as it was. -/
def KeepsTemplates (o : LoaderOptions) (code : Text) : Prop :=
  ∀ front content rest, TemplateAt code front content rest → template content <:+: wrap o code

/-- A template literal over two lines. -/
def feedCode : Text :=
  "var s = \x60a\nd\x60;".toList

/-- No line of a bundle begins as the second line of the literal does. -/
theorem not_keepsTemplates : ¬ KeepsTemplates BundleOptions.default.loader feedCode := by
  intro hkeeps
  have htemplate : TemplateAt feedCode "var s = ".toList "a\nd".toList ";".toList := by
    decide +kernel
  obtain ⟨u, v, hwrap⟩ := hkeeps _ _ _ htemplate
  have hexport : OneLineExport BundleOptions.default.loader.exportAs := nofun
  refine tame_wrap hexport feedCode ('\n' :: (u ++ "\x60a".toList)) ("d\x60".toList ++ v) ?_ rfl
  rw [← hwrap]
  simp [template]

end AmdBundle.Loader
