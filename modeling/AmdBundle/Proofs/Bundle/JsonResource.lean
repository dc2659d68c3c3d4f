import AmdBundle.Proofs.Bundle.Places
import AmdBundle.Proofs.Json.RoundTrip
import Mathlib

/-!
# JSON files survive bundling

A JSON file is read, printed, moved to the right into its fragment, and moved once more into the
loader. Every line feed of the printed value separates two items, so moving it prints the value
further right, and the text that stands in the bundle is read back as the value of the file.

* `shift_jsonValue` : the value of the file, moved into a bundle;
* `json_survives` : it is read back, with its keys in order.
-/

set_option autoImplicit false

namespace AmdBundle

/-- The value of a JSON file, moved into a bundle, is the value printed behind eight blanks. -/
theorem Fragment.shift_jsonValue {fs : FileTree} {path : Path} {text : Text} {v : Json}
    (hfile : fs.readText path = .ok text) (hparse : Json.parse text = .ok v) (hv : v.IsWhole) :
    Text.shift 4 (jsonValue fs path) = Json.prettyAt (Text.spaces 8) v := by
  have hvalue : jsonValue fs path = Text.shift 4 (Json.prettyAt (Text.spaces 0) v) := by
    simp only [jsonValue, hfile, hparse]
    rfl
  rw [hvalue, Json.shift_prettyAt hv, Json.shift_prettyAt hv]

open Fragment (filePath exportTail)

/-- **JSON files survive bundling.** Where the fragment of a JSON file of whole numbers stands in the
bundle, its default export is an expression that is read as the value of the file, up to its end. -/
theorem json_survives {fs : FileTree} {o : BundleOptions} {code output : Text} {doc : Document}
    (hbundle : bundle fs o code = some (.ok output)) (hread : Document.read code = .ok doc) {r : Resource}
    (hr : r ∈ doc.resources) (hjson : r.directive = .json) {text : Text} {v : Json}
    (hfile : fs.readText (filePath o.projectRoot r) = .ok text) (hparse : Json.parse text = .ok v)
    (hv : v.IsWhole) :
    ∃ body before after expression, doc.remap? code = some body ∧
      doc.resources = before ++ r :: after ∧
      Exports fs o before after body r.name expression output ∧
      Json.parse expression = .ok v ∧
      ∀ rest, Json.value Json.depthLimit (expression ++ (exportTail ++ rest)) =
        .ok (v, exportTail ++ rest) := by
  obtain ⟨body, hbody, houtput⟩ := bundle_eq_ok hbundle hread
  obtain ⟨before, after, hresources⟩ := List.append_of_mem hr
  have hexports := exports_of_bundle hresources houtput
  rw [hjson, Fragment.value, Fragment.shift_jsonValue hfile hparse hv] at hexports
  refine ⟨body, before, after, _, hbody, hresources, hexports, Json.parse_prettyAt hparse hv 8, ?_⟩
  intro rest
  have htail : Json.EndsNumber (exportTail ++ rest) := Json.endsNumber_cons (c := ';') (by decide)
  exact Json.value_prettyAt (Json.fits_of_parse hparse hv) 8 htail

/-- A file of one object, the keys of which are not in order. -/
def nestedFile : Text :=
  "\x7b\n  \"b\": [\n    1,\n    -20,\n    \x7b\x7d\n  ],\n  \"a\": \"\\\"\\n\\u0007\"\n\x7d".toList

def nestedValue : Json :=
  .object [("b".toList, .array [.number (.whole 1), .number (.whole (-20)), .object []]),
    ("a".toList, .string ['"', '\n', Char.ofNat 7])]

def nestedFiles : FileTree where
  entries := [(["data.json".toList], .file (Text.encode nestedFile))]
  current := []

/-- A module that depends on the file. -/
def nestedModule : Text :=
  "define(\"index\", [\"json!./data.json\"], function (data) \x7b\n\x7d);\n".toList

theorem fits_nestedValue : Json.Fits Json.depthLimit nestedValue := by
  have hempty : Json.Fits 125 (.object []) := .object List.nodup_nil nofun
  have hlist : Json.Fits 126 (.array [.number (.whole 1), .number (.whole (-20)), .object []]) :=
    .array (List.forall_mem_cons.mpr ⟨.number (by decide) (by decide),
      List.forall_mem_cons.mpr ⟨.number (by decide) (by decide), List.forall_mem_singleton.mpr hempty⟩⟩)
  exact .object (by decide)
    (List.forall_mem_cons.mpr ⟨hlist, List.forall_mem_singleton.mpr (.string _ _)⟩)

theorem json_survives_nested :
    ∃ doc output r, Document.read nestedModule = .ok doc ∧
      bundle nestedFiles .default nestedModule = some (.ok output) ∧ doc.resources = [r] ∧
      nestedFiles.readText (filePath BundleOptions.default.projectRoot r) = .ok nestedFile ∧
      Json.parse nestedFile = .ok nestedValue ∧ nestedValue.IsWhole ∧
      ∃ body before after expression,
        Exports nestedFiles .default before after body r.name expression output ∧
        Json.parse expression = .ok nestedValue := by
  obtain ⟨doc, hread⟩ : ∃ doc, Document.read nestedModule = .ok doc :=
    Outcome.exists_eq_ok (by decide +kernel)
  have hsome : (Document.read nestedModule).map (fun doc => (doc.remap? nestedModule).isSome) =
      .ok true := by decide +kernel
  have hlist : (Document.read nestedModule).map Document.resources =
      .ok [⟨"json!data.json".toList, "data.json".toList, .json, ["exports".toList]⟩] := by
    decide +kernel
  have hreplaced := Outcome.eq_of_map_eq_ok hread hsome
  obtain ⟨body, hbody⟩ := Option.isSome_iff_exists.mp hreplaced
  have hresources := Outcome.eq_of_map_eq_ok hread hlist
  obtain ⟨output, hbundle⟩ : ∃ output, bundle nestedFiles .default nestedModule = some (.ok output) :=
    ⟨_, bundle_eq_ok_iff.mpr ⟨doc, body, hread, hbody, rfl⟩⟩
  have hfile : nestedFiles.readText (filePath BundleOptions.default.projectRoot
      ⟨"json!data.json".toList, "data.json".toList, .json, ["exports".toList]⟩) = .ok nestedFile := by
    cbv
  have hprinted : nestedFile = Json.prettyAt (Text.spaces 0) nestedValue := by decide +kernel
  have hparse : Json.parse nestedFile = .ok nestedValue :=
    hprinted ▸ Json.parse_of_fits fits_nestedValue 0
  obtain ⟨body', before, after, expression, -, -, hexports, hvalue, -⟩ :=
    json_survives hbundle hread (hresources ▸ List.mem_singleton_self _) rfl hfile hparse
      fits_nestedValue.isWhole
  exact ⟨doc, output, _, hread, hbundle, hresources, hfile, hparse, fits_nestedValue.isWhole, body',
    before, after, expression, hexports, hvalue⟩

end AmdBundle
