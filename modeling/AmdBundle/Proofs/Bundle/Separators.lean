import AmdBundle.Proofs.Bundle.Places
import AmdBundle.Proofs.Json.Separators
import AmdBundle.Proofs.Resource.Linking
import Mathlib

/-!
# Line separators in bundles

A bundle of modules without line separators has some only where it was given some as a JSON string:
in the name of the first module, in the names of imports, in the strings and keys of JSON files and
in the names of files below a folder. The texts, stylesheets and names of resources are script
strings and have none.

* `SuppliesNoSeparator` : what a directive finds in a file or folder prints no separator;
  `hasNoSeparator_value_iff` : this is what its value is like;
* `hasNoSeparator_of_remap?` : the modules with their literals replaced;
* `hasNoSeparator_wrap_iff` : the loader around them;
* `hasNoSeparator_bundle_iff` : which bundles have no separators.
-/

set_option autoImplicit false

namespace AmdBundle
open Text (IsSeparator HasNoSeparator hasNoSeparator_append_iff hasNoSeparator_cons_iff
  hasNoSeparator_intercalate_iff hasNoSeparator_quote_iff hasNoSeparator_scriptQuote)

/-! ## Values of resources -/

/-- What the directive finds there is printed without separators. Only values of JSON files and names
of files are printed as they are. -/
def SuppliesNoSeparator (fs : FileTree) (path : Path) : Directive → Prop
  | .json => ∀ text v, fs.readText path = .ok text → Json.parse text = .ok v →
      ∀ part, v.HasText part → HasNoSeparator part
  | .directory => ∀ file ∈ Folder.pack fs path, HasNoSeparator file.1
  | _ => True

namespace Fragment
variable (fs : FileTree) (path : Path)

theorem hasNoSeparator_emptyString : HasNoSeparator emptyString := by
  decide

theorem hasNoSeparator_indentedJson_iff {v : Json} :
    HasNoSeparator (indentedJson v) ↔ ∀ text, v.HasText text → HasNoSeparator text := by
  rw [indentedJson, Text.hasNoSeparator_replaceChar_iff (by decide) (by decide)]
  exact Json.hasNoSeparator_prettyAt_iff (n := 0)

theorem hasNoSeparator_textValue : HasNoSeparator (textValue fs path) := by
  unfold textValue
  split
  · exact hasNoSeparator_scriptQuote _
  · exact hasNoSeparator_emptyString

theorem hasNoSeparator_base64Value : HasNoSeparator (base64Value fs path) := by
  unfold base64Value
  split
  · exact hasNoSeparator_scriptQuote _
  · exact hasNoSeparator_emptyString

theorem hasNoSeparator_byteArray (bytes : Bytes) : HasNoSeparator (byteArray bytes) := by
  have hopen : HasNoSeparator "new Uint8Array([".toList := by decide
  have hclose : HasNoSeparator "])".toList := by decide
  have hbytes : HasNoSeparator ([','].intercalate (bytes.map fun b => Text.ofNat b.toNat)) := by
    refine (hasNoSeparator_intercalate_iff (by decide)).mpr fun part hpart => ?_
    obtain ⟨b, -, rfl⟩ := List.mem_map.mp hpart
    exact Text.hasNoSeparator_ofNat b.toNat
  exact hasNoSeparator_append_iff.mpr ⟨hasNoSeparator_append_iff.mpr ⟨hopen, hbytes⟩, hclose⟩

theorem hasNoSeparator_bufferValue : HasNoSeparator (bufferValue fs path) := by
  unfold bufferValue
  split <;> exact hasNoSeparator_byteArray _

theorem hasNoSeparator_styleArray (content : Text) : HasNoSeparator (styleArray content) := by
  have hopen : HasNoSeparator "[\n".toList := by decide
  have hclose : HasNoSeparator "\n    ].join('\\n')".toList := by decide
  have hmargin : HasNoSeparator "        ".toList := by decide
  have hlines : HasNoSeparator (",\n".toList.intercalate ((content.splitOn '\n').map styleLine)) := by
    refine (hasNoSeparator_intercalate_iff (by decide)).mpr fun part hpart => ?_
    obtain ⟨line, -, rfl⟩ := List.mem_map.mp hpart
    exact hasNoSeparator_append_iff.mpr ⟨hmargin, hasNoSeparator_scriptQuote _⟩
  exact hasNoSeparator_append_iff.mpr ⟨hasNoSeparator_append_iff.mpr ⟨hopen, hlines⟩, hclose⟩

theorem hasNoSeparator_styleValue : HasNoSeparator (styleValue fs path) := by
  unfold styleValue
  split
  · exact hasNoSeparator_styleArray _
  · exact hasNoSeparator_emptyString

theorem hasText_failure_iff {reason : String} {text : Text} :
    (failure reason).HasText text ↔ text = "error".toList ∨ text = reason.toList := by
  simp only [failure, Json.ofString, Json.hasText_object_iff, List.mem_singleton, exists_eq_left,
    Json.hasText_string_iff]

theorem hasNoSeparator_compact_failure {reason : String} (h : HasNoSeparator reason.toList) :
    HasNoSeparator (Json.compact (failure reason)) := by
  have hkey : HasNoSeparator "error".toList := by decide
  have hmarks : ¬ IsSeparator '{' ∧ ¬ IsSeparator '}' ∧ ¬ IsSeparator ':' := by decide
  show HasNoSeparator ('{' :: (Text.quote "error".toList ++ ':' :: Text.quote reason.toList ++ ['}']))
  simp only [hasNoSeparator_cons_iff, hasNoSeparator_append_iff, hasNoSeparator_quote_iff]
  exact ⟨hmarks.1, ⟨hkey, hmarks.2.2, h⟩, hmarks.2.1, Text.hasNoSeparator_nil⟩

/-- What is said about a failure has no separators, so the value of the file decides. -/
theorem hasNoSeparator_jsonValue_iff :
    HasNoSeparator (jsonValue fs path) ↔ SuppliesNoSeparator fs path .json := by
  unfold jsonValue SuppliesNoSeparator
  cases hread : fs.readText path with
  | error fault =>
    refine iff_of_true (hasNoSeparator_indentedJson_iff.mpr fun text htext => ?_) nofun
    rcases hasText_failure_iff.mp htext with rfl | rfl <;> decide
  | ok text =>
    dsimp only
    cases hparse : Json.parse text with
    | error fault =>
      refine iff_of_true (hasNoSeparator_compact_failure (Json.hasNoSeparator_message hparse)) ?_
      rintro _ v ⟨⟩ hparse'
      rw [hparse] at hparse'
      cases hparse'
    | ok v =>
      rw [hasNoSeparator_indentedJson_iff]
      constructor
      · rintro h _ v' ⟨⟩ hparse'
        obtain rfl := Except.ok.inj (hparse.symm.trans hparse')
        exact h
      · exact fun h => h text v rfl hparse

theorem hasNoSeparator_of_mem_pack {file : Text × Text} (h : file ∈ Folder.pack fs path) :
    HasNoSeparator file.2 := by
  unfold Folder.pack at h
  split at h
  · cases h
  · split at h
    · obtain ⟨names, -, hfile⟩ := List.mem_filterMap.mp h
      unfold Folder.packed? at hfile
      split at hfile
      · cases hfile
      · obtain rfl := Option.some.inj hfile
        exact Text.hasNoSeparator_base64 _
    · cases h

theorem hasNoSeparator_folderValue_iff :
    HasNoSeparator (folderValue fs path) ↔ SuppliesNoSeparator fs path .directory := by
  rw [folderValue, hasNoSeparator_indentedJson_iff]
  simp only [Json.hasText_object_iff, List.mem_map, SuppliesNoSeparator]
  constructor
  · exact fun h file hfile => h file.1 ⟨_, ⟨file, hfile, rfl⟩, .inl rfl⟩
  · rintro h _ ⟨_, ⟨file, hfile, rfl⟩, rfl | htext⟩
    · exact h file hfile
    · obtain rfl := Json.hasText_string_iff.mp htext
      exact hasNoSeparator_of_mem_pack fs path hfile

/-- **Which values have no separators.** -/
theorem hasNoSeparator_value_iff (directive : Directive) :
    HasNoSeparator (value fs path directive) ↔ SuppliesNoSeparator fs path directive := by
  cases directive with
  | text => exact iff_of_true (hasNoSeparator_textValue fs path) trivial
  | json => exact hasNoSeparator_jsonValue_iff fs path
  | base64 => exact iff_of_true (hasNoSeparator_base64Value fs path) trivial
  | buffer => exact iff_of_true (hasNoSeparator_bufferValue fs path) trivial
  | css => exact iff_of_true (hasNoSeparator_styleValue fs path) trivial
  | directory => exact hasNoSeparator_folderValue_iff fs path

theorem hasNoSeparator_module_iff {name value : Text} :
    HasNoSeparator (module name value) ↔ HasNoSeparator value := by
  have hopen : HasNoSeparator "define(".toList := by decide
  have hhead : HasNoSeparator
      ", [\"exports\"], function (exports) \x7b\n    exports.__esModule = true;\n".toList := by decide
  have hexport : HasNoSeparator "    exports[\"default\"] = ".toList := by decide
  have hclose : HasNoSeparator ";\n\x7d);".toList := by decide
  unfold module
  simp only [hasNoSeparator_append_iff, hasNoSeparator_scriptQuote]
  exact ⟨fun h => h.1.2, fun h => ⟨⟨⟨⟨⟨hopen, trivial⟩, hhead⟩, hexport⟩, h⟩, hclose⟩⟩

theorem hasNoSeparator_fragment_iff {root : Path} {r : Resource} :
    HasNoSeparator (fragment fs root r) ↔
      SuppliesNoSeparator fs (filePath root r) r.directive := by
  rw [fragment, hasNoSeparator_module_iff, hasNoSeparator_value_iff]

end Fragment

/-! ## The modules -/

section
variable {code : Text} {headers : List Header}

theorem Header.hasNoSeparator_of_mem_literals (hcode : HasNoSeparator code)
    (hscan : Header.scan code = .ok headers) {h : Header} (hh : h ∈ headers) {l : Literal}
    (hl : l ∈ h.literals) : HasNoSeparator l.content := by
  obtain ⟨front, rest, hopens, s, hs, rfl⟩ := (Header.mem_headers_iff hscan).mp hh
  obtain ⟨before, behind, rfl, -⟩ := Shape.standsIn_of_mem_literals hopens.split hs hl
  intro c hc
  exact hcode c (by simp [Literal.spelling, hc])

/-- A key has no separators, since its characters are of the text and of the library. -/
theorem Document.hasNoSeparator_key (hcode : HasNoSeparator code)
    (hscan : Header.scan code = .ok headers) {r : Rewrite} (hr : r ∈ allRewrites headers) :
    HasNoSeparator r.key := by
  obtain ⟨h, hh, hl, hkey⟩ := mem_allRewrites_iff.mp hr
  have hname := Header.hasNoSeparator_of_mem_literals hcode hscan hh List.mem_cons_self
  have hcontent := Header.hasNoSeparator_of_mem_literals hcode hscan hh (List.mem_cons_of_mem _ hl)
  have hdirective : ∀ d : Directive, HasNoSeparator d.name.toList := by
    intro d
    cases d <;> decide
  exact ResourceKey.forall_mem_of_ofToken? (by decide) (by decide) (by decide) hdirective hname
    (fun c hc => hcontent c (Text.mem_of_mem_trim hc)) hkey

theorem Document.Spliced.hasNoSeparator {start : Nat} {rewrites : List Rewrite} {text out : Text}
    (h : Spliced start rewrites text out) (hkeys : ∀ r ∈ rewrites, HasNoSeparator r.key)
    (htext : HasNoSeparator text) : HasNoSeparator out := by
  induction h with
  | done => exact htext
  | @replace start r more text out kept place tail ih =>
    obtain ⟨hkey, hkeys⟩ := List.forall_mem_cons.mp hkeys
    simp only [hasNoSeparator_append_iff, hasNoSeparator_cons_iff, Literal.spelling, Rewrite.spelling,
      Text.hasNoSeparator_nil] at htext ⊢
    obtain ⟨hkept, ⟨hquote, -⟩, htext⟩ := htext
    exact ⟨hkept, ⟨hquote, hkey, hquote, trivial⟩, ih hkeys htext⟩

theorem hasNoSeparator_of_remap? {doc : Document} {body : Text} (hcode : HasNoSeparator code)
    (hread : Document.read code = .ok doc) (hremap : doc.remap? code = some body) :
    HasNoSeparator body := by
  obtain ⟨headers, hscan, hdoc⟩ := Document.read_eq_ok_iff.mp hread
  obtain ⟨-, hrewrites, -, -⟩ := Document.eq_of_ofHeaders hdoc
  exact (Fragment.spliced_of_remap? hread hremap).hasNoSeparator
    (fun r hr => Document.hasNoSeparator_key hcode hscan (hrewrites ▸ hr)) hcode

end

/-! ## The loader -/

namespace Capabilities
variable (c : Capabilities)

theorem hasNoSeparator_spellings : HasNoSeparator c.fixed.toList ∧ HasNoSeparator c.changing.toList ∧
    HasNoSeparator c.exportsFunction.toList ∧ HasNoSeparator c.catchClause.toList ∧
    HasNoSeparator c.invocation.toList := by
  refine ⟨?_, ?_, ?_, ?_, ?_⟩
  all_goals
    simp only [fixed, changing, exportsFunction, catchClause, invocation]
    split <;> decide

end Capabilities

namespace Loader

theorem hasNoSeparator_joined_iff {lines : List String} :
    HasNoSeparator (joined lines) ↔ ∀ line ∈ lines, HasNoSeparator line.toList := by
  rw [joined, hasNoSeparator_intercalate_iff (by decide)]
  simp

section
variable (c : Capabilities)

-- Every line falls into words and spellings that depend on the target, and the words are compared
-- as lists of characters.

theorem hasNoSeparator_opening : ∀ line ∈ opening c, HasNoSeparator line.toList := by
  simp only [opening, List.forall_mem_cons, String.toList_append, hasNoSeparator_append_iff]
  repeat rw [String.toList_ofList]
  simp only [c.hasNoSeparator_spellings, and_true]
  decide

theorem hasNoSeparator_setDefault : ∀ line ∈ setDefault c, HasNoSeparator line.toList := by
  unfold setDefault
  split
  all_goals
    simp only [List.forall_mem_cons]
    repeat rw [String.toList_ofList]
    decide

theorem hasNoSeparator_defining : ∀ line ∈ defining c, HasNoSeparator line.toList := by
  simp only [defining, List.forall_mem_cons, String.toList_append, hasNoSeparator_append_iff]
  repeat rw [String.toList_ofList]
  simp only [c.hasNoSeparator_spellings]
  decide

theorem hasNoSeparator_finding : ∀ line ∈ finding c, HasNoSeparator line.toList := by
  simp only [finding, List.forall_mem_cons, String.toList_append, hasNoSeparator_append_iff]
  repeat rw [String.toList_ofList]
  simp only [c.hasNoSeparator_spellings, and_true]
  decide

theorem hasNoSeparator_resolving : ∀ line ∈ resolving c, HasNoSeparator line.toList := by
  simp only [resolving, List.forall_mem_cons, String.toList_append, hasNoSeparator_append_iff]
  repeat rw [String.toList_ofList]
  simp only [c.hasNoSeparator_spellings, and_true]
  decide

theorem hasNoSeparator_header : HasNoSeparator (header c) := by
  simp only [header, hasNoSeparator_joined_iff, List.forall_mem_append]
  exact ⟨⟨hasNoSeparator_opening c, hasNoSeparator_setDefault c⟩, hasNoSeparator_defining c⟩

theorem hasNoSeparator_starting_iff {entry : Text} :
    (∀ line ∈ starting (String.ofList entry), HasNoSeparator line.toList) ↔ HasNoSeparator entry := by
  simp only [starting, List.forall_mem_cons, String.toList_append, hasNoSeparator_append_iff]
  repeat rw [String.toList_ofList]
  refine ⟨fun h => h.2.1.1.2, fun h => ⟨by decide, ⟨⟨by decide, h⟩, by decide⟩, by decide⟩⟩

theorem hasNoSeparator_footer_iff {entry : Text} :
    HasNoSeparator (footer c entry) ↔ HasNoSeparator entry := by
  have hblank : ∀ line ∈ [""], HasNoSeparator line.toList := by decide
  simp only [footer, hasNoSeparator_joined_iff, List.forall_mem_append, hasNoSeparator_starting_iff]
  exact ⟨fun h => h.2, fun h =>
    ⟨⟨⟨⟨hasNoSeparator_finding c, hblank⟩, hasNoSeparator_resolving c⟩, hblank⟩, h⟩⟩

end

/-- The names that the loader prints have no separators. -/
structure HasPlainNames (o : LoaderOptions) : Prop where
  entryPoint : ∀ name, o.entryPoint = some name → HasNoSeparator name
  importAs : ∀ i ∈ o.importAs, HasNoSeparator i.inner ∧ HasNoSeparator i.outer

theorem hasNoSeparator_entryExpression_iff {entryPoint : Option Text} :
    HasNoSeparator (entryExpression entryPoint) ↔
      ∀ name, entryPoint = some name → HasNoSeparator name := by
  cases entryPoint with
  | none =>
    refine iff_of_true (by decide) ?_
    rintro _ ⟨⟩
  | some name =>
    show HasNoSeparator (Text.quote name) ↔ _
    rw [hasNoSeparator_quote_iff]
    exact ⟨fun h _ hname => Option.some.inj hname ▸ h, fun h => h name rfl⟩

theorem hasNoSeparator_importFlag (kind : ImportKind) : HasNoSeparator (importFlag kind) := by
  cases kind <;> decide

theorem hasNoSeparator_importModule_iff {i : ImportAs} :
    HasNoSeparator (importModule i) ↔ HasNoSeparator i.inner ∧ HasNoSeparator i.outer := by
  unfold importModule
  simp only [hasNoSeparator_append_iff, hasNoSeparator_quote_iff]
  repeat rw [String.toList_ofList]
  refine ⟨fun h => ⟨h.1.1.1.1.1.2, h.1.2⟩, fun h => ?_⟩
  exact ⟨⟨⟨⟨⟨⟨by decide, h.1⟩, by decide⟩, hasNoSeparator_importFlag i.kind⟩, by decide⟩, h.2⟩,
    by decide⟩

theorem hasNoSeparator_body_iff {o : LoaderOptions} {code : Text} :
    HasNoSeparator (body o code) ↔
      (∀ i ∈ o.importAs, HasNoSeparator i.inner ∧ HasNoSeparator i.outer) ∧ HasNoSeparator code := by
  have hmarker : HasNoSeparator marker := by decide
  rw [body, hasNoSeparator_intercalate_iff (by decide)]
  simp only [List.forall_mem_append, List.forall_mem_map, List.forall_mem_cons,
    hasNoSeparator_importModule_iff]
  exact ⟨fun h => ⟨h.1, h.2.1⟩, fun h => ⟨h.1, h.2, hmarker, List.forall_mem_nil _⟩⟩

theorem hasNoSeparator_assignment {exportAs : ExportAs}
    (h : ∀ name, exportAs = .global name → HasNoSeparator name) :
    HasNoSeparator (assignment exportAs) := by
  cases exportAs with
  | nowhere => exact Text.hasNoSeparator_nil
  | commonJs => exact (by decide : HasNoSeparator "module.exports = ".toList)
  | global name =>
    have hvar : HasNoSeparator "var ".toList := by decide
    have hmark : HasNoSeparator " = ".toList := by decide
    show HasNoSeparator ("var ".toList ++ name ++ " = ".toList)
    simp only [hasNoSeparator_append_iff]
    exact ⟨⟨hvar, h name rfl⟩, hmark⟩

theorem hasNoSeparator_wrap_iff {o : LoaderOptions} {code : Text}
    (h : ∀ name, o.exportAs = .global name → HasNoSeparator name) :
    HasNoSeparator (wrap o code) ↔ HasPlainNames o ∧ HasNoSeparator code := by
  have hindent : HasNoSeparator (Text.indent "    ".toList (body o code)) ↔
      HasNoSeparator (body o code) := Text.hasNoSeparator_indent_iff (k := 4)
  rw [wrap, hasNoSeparator_intercalate_iff (by decide)]
  simp only [List.forall_mem_cons, hindent, hasNoSeparator_append_iff, hasNoSeparator_body_iff,
    hasNoSeparator_footer_iff, hasNoSeparator_entryExpression_iff]
  constructor
  · exact fun ⟨_, ⟨himports, hcode⟩, hentry, _⟩ => ⟨⟨hentry, himports⟩, hcode⟩
  · exact fun ⟨hnames, hcode⟩ => ⟨⟨hasNoSeparator_assignment h, hasNoSeparator_header _⟩,
      ⟨hnames.importAs, hcode⟩, hnames.entryPoint, List.forall_mem_nil _⟩

end Loader

/-! ## Bundles -/

/-- **Which bundles have no line separators.** If the modules have none and the name of the exports
has none, then the bundle has none exactly if the names of its first module and of its imports have
none, and nothing that is found in its JSON files and folders does. -/
theorem hasNoSeparator_bundle_iff {fs : FileTree} {o : BundleOptions} {code output : Text}
    {doc : Document} (hcode : HasNoSeparator code)
    (hname : ∀ name, o.exportAs = .global name → HasNoSeparator name)
    (hread : Document.read code = .ok doc) (hbundle : bundle fs o code = some (.ok output)) :
    HasNoSeparator output ↔ Loader.HasPlainNames o.loader ∧ ∀ r ∈ doc.resources,
      SuppliesNoSeparator fs (Fragment.filePath o.projectRoot r) r.directive := by
  obtain ⟨body, hbody, rfl⟩ := bundle_eq_ok hbundle hread
  have hbody := hasNoSeparator_of_remap? hcode hread hbody
  rw [Loader.hasNoSeparator_wrap_iff hname, hasNoSeparator_intercalate_iff (by decide)]
  simp only [List.forall_mem_append, List.forall_mem_map, Fragment.hasNoSeparator_fragment_iff]
  exact and_congr_right' (and_iff_left (List.forall_mem_singleton.mpr hbody))

/-- A file that is a JSON string with a separator. -/
def separatorFile : Text :=
  ['"', '\u2028', '"']

def separatorFiles : FileTree where
  entries := [(["a".toList], .file (Text.encode separatorFile))]
  current := []

/-- A module that depends on the file twice. -/
def separatorModule : Text :=
  "define(\"m\", [\"text!./a\", \"json!./a\"], function (text, json) \x7b\n\x7d);\n".toList

/-- The file is the reason why its bundle has a separator: as JSON, but not as a text. -/
theorem hasNoSeparator_bundle_twice :
    HasNoSeparator separatorModule ∧
      (∀ name, BundleOptions.default.exportAs = .global name → HasNoSeparator name) ∧
      ∃ doc output, Document.read separatorModule = .ok doc ∧
        bundle separatorFiles .default separatorModule = some (.ok output) ∧
        ¬ HasNoSeparator output := by
  have hcode : HasNoSeparator separatorModule := by decide
  have hname : ∀ name, BundleOptions.default.exportAs = .global name → HasNoSeparator name := by
    rintro _ ⟨⟩
  obtain ⟨output, hbundle⟩ := Outcome.exists_eq_some_ok
    (x := bundle separatorFiles .default separatorModule) (by decide +kernel)
  obtain ⟨doc, hread⟩ := Outcome.exists_eq_ok (x := Document.read separatorModule) (by decide +kernel)
  have hlist : (Document.read separatorModule).map Document.resources =
      .ok [⟨"text!a".toList, "a".toList, .text, ["exports".toList]⟩,
        ⟨"json!a".toList, "a".toList, .json, ["exports".toList]⟩] := by
    decide +kernel
  have hresources := Outcome.eq_of_map_eq_ok hread hlist
  refine ⟨hcode, hname, doc, output, hread, hbundle, fun hfree => ?_⟩
  have hsupplies := ((hasNoSeparator_bundle_iff hcode hname hread hbundle).mp hfree).2
  rw [hresources] at hsupplies
  have hjson := hsupplies _ (List.mem_cons_of_mem _ List.mem_cons_self)
  have hfile : separatorFiles.readText (Fragment.filePath BundleOptions.default.projectRoot
      ⟨"json!a".toList, "a".toList, .json, ["exports".toList]⟩) = .ok separatorFile := by
    cbv
  have hparse : Json.parse separatorFile = .ok (.string ['\u2028']) := by
    cbv
  exact absurd (hjson _ _ hfile hparse _ (.string _)) (by decide)

end AmdBundle
