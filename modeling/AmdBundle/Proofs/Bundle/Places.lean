import AmdBundle.Proofs.Bundle.Outcomes
import AmdBundle.Proofs.Loader.Wrap
import AmdBundle.Proofs.Text.Quoted

/-!
# Where the fragments of a bundle stand

A bundle is the loader around its modules: those of the imports, the fragments, the code and the
marker, each indented.

* `indent_module` : an indented module is a fixed text around the expression for its default export;
* `Exports` : that expression at its place in a bundle;
* `exports_of_bundle` : every resource has its place.
-/

set_option autoImplicit false

namespace AmdBundle

namespace Fragment

/-! ## Fragments in a bundle -/

/-- What stands in an indented module before the expression for its default export. -/
def exportHead (name : Text) : Text :=
  "    define(".toList ++ Text.scriptQuote name ++
    ", [\"exports\"], function (exports) \x7b\n        exports.__esModule = true;\n".toList ++
    "        exports[\"default\"] = ".toList

/-- What stands in an indented module behind that expression. -/
def exportTail : Text :=
  ";\n    \x7d);".toList

/-- Words around a name and a value. The words are variables here, since they are slow to compare. -/
theorem indent_around {a b c d a' b' c' d' : Text} (ha : Loader.margin ++ Text.shift 4 a = a')
    (hbc : Text.shift 4 (b ++ c) = b' ++ c') (hd : Text.shift 4 d = d') (name value : Text) :
    Text.indent Loader.margin (a ++ Text.scriptQuote name ++ b ++ c ++ value ++ d) =
      a' ++ Text.scriptQuote name ++ b' ++ c' ++ Text.shift 4 value ++ d' := by
  have hname : Text.shift 4 (Text.scriptQuote name) = Text.scriptQuote name :=
    Text.shift_of_not_mem (Text.feed_not_mem_scriptQuote name) 4
  rw [Text.shift_append] at hbc
  subst ha
  simp only [Loader.margin, Text.indent_spaces, Text.shift_append, List.append_assoc, hname, hd]
  rw [← List.append_assoc (Text.shift 4 b), hbc, List.append_assoc]

/-- A module in a bundle: its own lines move to the right, and so does the expression. -/
theorem indent_module (name value : Text) :
    Text.indent Loader.margin (module name value) =
      exportHead name ++ Text.shift 4 value ++ exportTail :=
  indent_around (by decide +kernel) (by decide +kernel) (by decide +kernel) name value

end Fragment

/-! ## Places in a bundle -/

open Fragment (fragment filePath exportHead exportTail)

/-- The modules before the fragments of some resources: the imports, and the fragments of the
resources before them. -/
def modulesBefore (fs : FileTree) (o : BundleOptions) (before : List Resource) : List Text :=
  o.importAs.map Loader.importModule ++ before.map (fragment fs o.projectRoot)

/-- The modules behind them: the other fragments, the code and the marker. -/
def modulesAfter (fs : FileTree) (o : BundleOptions) (after : List Resource) (body : Text) :
    List Text :=
  after.map (fragment fs o.projectRoot) ++ [body, Loader.marker]

/-- The bundle has a module at that place which assigns the expression to the default export. -/
def Exports (fs : FileTree) (o : BundleOptions) (before after : List Resource) (body : Text)
    (name expression output : Text) : Prop :=
  output = ['\n'].intercalate
    (Loader.top o.loader :: (modulesBefore fs o before).map (Text.indent Loader.margin) ++
      (exportHead name ++ expression ++ exportTail) ::
        ((modulesAfter fs o after body).map (Text.indent Loader.margin) ++ [Loader.bottom o.loader]))

theorem bundle_eq_ok {fs : FileTree} {o : BundleOptions} {code output : Text} {doc : Document}
    (hbundle : bundle fs o code = some (.ok output)) (hread : Document.read code = .ok doc) :
    ∃ body, doc.remap? code = some body ∧
      output = Loader.wrap o.loader
        (['\n'].intercalate (doc.resources.map (fragment fs o.projectRoot) ++ [body])) := by
  obtain ⟨doc', body, hread', hbody, houtput⟩ := bundle_eq_ok_iff.mp hbundle
  obtain rfl := Except.ok.inj (hread.symm.trans hread')
  exact ⟨body, hbody, houtput⟩

/-- Every resource has its place in a bundle. -/
theorem exports_of_bundle {fs : FileTree} {o : BundleOptions} {output body : Text}
    {doc : Document} {before after : List Resource} {r : Resource}
    (hresources : doc.resources = before ++ r :: after)
    (houtput : output = Loader.wrap o.loader
      (['\n'].intercalate (doc.resources.map (fragment fs o.projectRoot) ++ [body]))) :
    Exports fs o before after body r.name
      (Text.shift 4 (Fragment.value fs (filePath o.projectRoot r) r.directive)) output := by
  have hmodule := Fragment.indent_module r.name (Fragment.value fs (filePath o.projectRoot r) r.directive)
  rw [Loader.wrap_eq _ (by simp)] at houtput
  rw [Exports, houtput, hresources, ← hmodule]
  simp [Loader.inside, modulesBefore, modulesAfter, fragment, BundleOptions.loader]

end AmdBundle
