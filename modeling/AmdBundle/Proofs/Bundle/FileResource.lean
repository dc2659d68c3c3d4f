import AmdBundle.Proofs.Bundle.Places
import AmdBundle.Proofs.FileTree.Write
import AmdBundle.Proofs.Resource.Values
import AmdBundle.Proofs.Stylesheet.Inline

/-!
# Texts, stylesheets and bytes survive bundling

The value of a resource is moved to the right into its fragment in the bundle, and its literals are
not changed by that.

* `file_survives` : the file of a resource is got back from the bundle.
-/

set_option autoImplicit false

namespace AmdBundle

open Fragment (IsReadable Carries filePath)

/-- **Files survive bundling.** Where the fragment of a text, a stylesheet or of bytes stands in the
bundle, its default export is an expression from which the file is got back, and its literals are those
of the value before it was moved into the bundle. -/
theorem file_survives {fs : FileTree} {o : BundleOptions} {code output : Text} {doc : Document}
    (hbundle : bundle fs o code = some (.ok output)) (hread : Document.read code = .ok doc) {r : Resource}
    (hr : r ∈ doc.resources)
    (hfile : IsReadable fs (filePath o.projectRoot r) r.directive) :
    ∃ body before after expression, doc.remap? code = some body ∧
      doc.resources = before ++ r :: after ∧
      Exports fs o before after body r.name expression output ∧
      Carries fs (filePath o.projectRoot r) r.directive
        (Fragment.value fs (filePath o.projectRoot r) r.directive) expression := by
  obtain ⟨body, hbody, houtput⟩ := bundle_eq_ok hbundle hread
  obtain ⟨before, after, hresources⟩ := List.append_of_mem hr
  exact ⟨body, before, after, _, hbody, hresources, exports_of_bundle hresources houtput,
    Fragment.carries_value hfile⟩

def mixedText : Text :=
  "<p class=\"\\\">\r\n\u2028</p>\n".toList

def mixedStyle : Text :=
  ".a\r\n\x7b\r\x7d\n".toList

/-- A text with characters that are escaped, and a stylesheet and bytes that are not all printable. -/
def mixedFiles : FileTree where
  entries := [(["page.html".toList], .file (Text.encode mixedText)),
    (["page.css".toList], .file (Text.encode mixedStyle)),
    (["page.bin".toList], .file [0, 10, 34, 255])]
  current := []

/-- A module that depends on each of them, on the bytes in both forms. -/
def mixedModule : Text :=
  ("define(\"index\", [\"text!./page.html\", \"css!./page.css\", \"base64!./page.bin\", " ++
    "\"buffer!./page.bin\"], function (a, b, c, d) \x7b\n\x7d);\n").toList

def mixedResources : List Resource := [
  ⟨"text!page.html".toList, "page.html".toList, .text, ["exports".toList]⟩,
  ⟨"css!page.css".toList, "page.css".toList, .css, ["exports".toList]⟩,
  ⟨"base64!page.bin".toList, "page.bin".toList, .base64, ["exports".toList]⟩,
  ⟨"buffer!page.bin".toList, "page.bin".toList, .buffer, ["exports".toList]⟩]

theorem read_mixedModule : (Document.read mixedModule).map (fun doc =>
    ((doc.remap? mixedModule).isSome, doc.resources)) = .ok (true, mixedResources) := by
  decide +kernel

theorem readText_mixedFiles :
    mixedFiles.readText "page.html".toList = .ok mixedText ∧
      mixedFiles.readText "/page.css".toList = .ok mixedStyle := by
  have htext : mixedFiles.readBytes "page.html".toList = .ok (Text.encode mixedText) :=
    FileTree.readBytes_of_name "page.html".toList (by decide +kernel) (by decide +kernel)
      (by decide +kernel) ⟨by decide +kernel, by decide +kernel, by decide +kernel⟩
      (by decide +kernel) (by decide +kernel) (by decide +kernel)
  have hstyle : mixedFiles.readBytes "/page.css".toList = .ok (Text.encode mixedStyle) :=
    FileTree.readBytes_of_name "page.css".toList (by decide +kernel) (by decide +kernel)
      (by decide +kernel) ⟨by decide +kernel, by decide +kernel, by decide +kernel⟩
      (by decide +kernel) (by decide +kernel) (by decide +kernel)
  constructor
  · rw [FileTree.readText, htext, Outcome.bind_ok, FileTree.asText_encode]
  · rw [FileTree.readText, hstyle, Outcome.bind_ok, FileTree.asText_encode]

theorem inline_mixedFiles : Stylesheet.inline mixedFiles "page.css".toList = .ok mixedStyle := by
  have hpath : Path.clean (mixedFiles.absolute "page.css".toList) = "/page.css".toList := by
    decide +kernel
  have htext := readText_mixedFiles.2
  have hsplit : Stylesheet.splitImports mixedStyle = ([], mixedStyle) := by decide +kernel
  have hopen : Stylesheet.openSheet mixedFiles (Path.clean (mixedFiles.absolute "page.css".toList)) =
      .ok ⟨"/page.css".toList, [], mixedStyle⟩ := by
    rw [hpath, Stylesheet.openSheet, FileTree.isFile_of_readText htext, if_pos rfl, htext]
    simp only [hsplit, List.map_nil]
  exact Stylesheet.inline_of_no_imports hopen rfl

theorem isReadable_mixedFiles : ∀ r ∈ mixedResources,
    IsReadable mixedFiles (filePath BundleOptions.default.projectRoot r) r.directive := by
  have hpaths : mixedResources.map (filePath BundleOptions.default.projectRoot) =
      ["page.html".toList, "page.css".toList, "page.bin".toList, "page.bin".toList] := by
    decide +kernel
  have hbytes : mixedFiles.readBytes "page.bin".toList = .ok [0, 10, 34, 255] :=
    FileTree.readBytes_of_name "page.bin".toList (by decide +kernel) (by decide +kernel)
      (by decide +kernel) ⟨by decide +kernel, by decide +kernel, by decide +kernel⟩
      (by decide +kernel) (by decide +kernel) (by decide +kernel)
  simp only [mixedResources, List.map_cons, List.map_nil, List.cons.injEq, and_true] at hpaths
  obtain ⟨htext, hstyle, hbase64, hbuffer⟩ := hpaths
  simp only [mixedResources, List.forall_mem_cons, htext, hstyle, hbase64, hbuffer]
  exact ⟨⟨_, readText_mixedFiles.1⟩, ⟨_, inline_mixedFiles⟩, ⟨_, hbytes⟩, ⟨_, hbytes⟩, nofun⟩

theorem file_survives_mixed :
    ∃ doc output, Document.read mixedModule = .ok doc ∧
      bundle mixedFiles .default mixedModule = some (.ok output) ∧ doc.resources = mixedResources ∧
      ∀ r ∈ mixedResources,
        IsReadable mixedFiles (filePath BundleOptions.default.projectRoot r) r.directive ∧
        ∃ body before after expression,
          Exports mixedFiles .default before after body r.name expression output ∧
          Carries mixedFiles (filePath BundleOptions.default.projectRoot r) r.directive
            (Fragment.value mixedFiles (filePath BundleOptions.default.projectRoot r) r.directive)
            expression := by
  obtain ⟨doc, hread, hdoc⟩ := Outcome.map_eq_ok_iff.mp read_mixedModule
  obtain ⟨hsome, hresources⟩ := Prod.mk.inj hdoc
  obtain ⟨body, hbody⟩ := Option.isSome_iff_exists.mp hsome
  obtain ⟨output, hbundle⟩ : ∃ output, bundle mixedFiles .default mixedModule = some (.ok output) :=
    ⟨_, bundle_eq_ok_iff.mpr ⟨doc, body, hread, hbody, rfl⟩⟩
  refine ⟨doc, output, hread, hbundle, hresources, fun r hr => ?_⟩
  have hfile := isReadable_mixedFiles r hr
  obtain ⟨body', before, after, expression, -, -, hexports, hcarries⟩ :=
    file_survives hbundle hread (hresources ▸ hr) hfile
  exact ⟨hfile, body', before, after, expression, hexports, hcarries⟩

end AmdBundle
