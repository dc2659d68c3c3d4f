import AmdBundle.Proofs.Bundle.Outcomes
import AmdBundle.Proofs.Document.Knots
import AmdBundle.Proofs.Document.Tables
import AmdBundle.Proofs.Header.Bare
import AmdBundle.Proofs.Script.Literal
import AmdBundle.Resource.Fragment
import Mathlib.Data.Bool.AllAny

/-!
# From a literal to its fragment

A literal is replaced by a key between the quotes that it had, and the fragment of the key is named by
the key as a quoted text. The two denote the same name only if the key needs no escapes.

* `definedName?` : the name under which a fragment defines its module;
* `Linked` : a literal denotes the name of exactly one fragment;
* `exists_definer` : there is exactly one fragment for every key;
* `linked_iff` : a literal denotes its own key exactly if the key is plain; if it is not, the literal is
  linked only where it denotes another key.
-/

set_option autoImplicit false

namespace AmdBundle.Fragment

open Script (units denoted? IsPlain)

/-- The name under which a fragment defines its module, as a script reads it. -/
def definedName? (fragment : Text) : Option (List Nat) :=
  (Text.dropWord "define(".toList fragment).bind fun rest =>
    (Script.readLiteral rest).map Prod.fst

/-- The fragments that define a module of that name. -/
def definers (fragments : List Text) (name : List Nat) : List Text :=
  fragments.filter fun fragment => definedName? fragment = some name

/-- The literal denotes a name, and exactly one fragment defines the module of that name. -/
def Linked (fragments : List Text) (literal : Text) : Prop :=
  ∃ name, denoted? literal = some name ∧ ∃ fragment, definers fragments name = [fragment]

/-! ## Names of fragments -/

theorem definedName?_module (name value : Text) :
    definedName? (module name value) = some (units name) := by
  unfold definedName? module
  -- The words themselves do not matter, and are slow to compare.
  generalize "define(".toList = word
  have hdrop (rest : Text) : Text.dropWord word (word ++ rest) = some rest :=
    Text.dropWord_eq_some_iff.mpr rfl
  simp only [List.append_assoc, hdrop, Option.bind_some, Script.readLiteral_scriptQuote,
    Option.map_some]

theorem definers_fragments (fs : FileTree) (root : Path) (resources : List Resource) (key : Text) :
    definers (resources.map (fragment fs root)) (units key) =
      (resources.filter fun r => r.name = key).map (fragment fs root) := by
  have hname (r : Resource) : definedName? (fragment fs root r) = some (units key) ↔ r.name = key := by
    rw [fragment, definedName?_module, Option.some.injEq]
    exact ⟨Script.units_injective, congrArg units⟩
  rw [definers, List.filter_map]
  exact congrArg _ (List.filter_congr fun r _ => decide_eq_decide.mpr (hname r))

theorem exists_eq_units_of_definers {fs : FileTree} {root : Path} {resources : List Resource}
    {name : List Nat} {f : Text} (h : f ∈ definers (resources.map (fragment fs root)) name) :
    ∃ r ∈ resources, name = units r.name := by
  obtain ⟨hf, hname⟩ := List.mem_filter.mp h
  obtain ⟨r, hr, rfl⟩ := List.mem_map.mp hf
  have hname := of_decide_eq_true hname
  rw [fragment, definedName?_module] at hname
  exact ⟨r, hr, (Option.some.inj hname).symm⟩

/-! ## Keys and their fragments -/

section
variable {code : Text} {doc : Document} (hread : Document.read code = .ok doc)
include hread

/-- The names of the resources are the keys of the literals to replace, and no two are the same. -/
theorem names_of_read : (doc.resources.map Resource.name).Nodup ∧
    ∀ k, k ∈ doc.resources.map Resource.name ↔ k ∈ doc.rewrites.map Rewrite.key := by
  obtain ⟨headers, -, hdoc⟩ := Document.read_eq_ok_iff.mp hread
  obtain ⟨-, -, hremaps, -⟩ := Document.eq_of_ofHeaders hdoc
  have hagrees := Document.agrees_of_ofHeaders hdoc
  refine ⟨hagrees.distinct, fun k => ?_⟩
  rw [hagrees.names, hremaps, Document.keys_remapsOf, List.mem_eraseDups]

theorem exists_definer (fs : FileTree) (root : Path) {r : Rewrite} (hr : r ∈ doc.rewrites) :
    ∃ f, definers (doc.resources.map (fragment fs root)) (units r.key) = [f] := by
  obtain ⟨hnodup, hkeys⟩ := names_of_read hread
  obtain ⟨resource, -, -, hfilter⟩ :=
    Document.exists_filter_eq_singleton hnodup ((hkeys r.key).mpr (List.mem_map_of_mem hr))
  exact ⟨_, by rw [definers_fragments, hfilter, List.map_singleton]⟩

theorem denotes_iff_isPlain {r : Rewrite} (hr : r ∈ doc.rewrites) :
    denoted? r.spelling = some (units r.key) ↔ IsPlain r.literal.quote r.key := by
  obtain ⟨headers, hscan, hdoc⟩ := Document.read_eq_ok_iff.mp hread
  obtain ⟨-, hrewrites, -, -⟩ := Document.eq_of_ofHeaders hdoc
  obtain ⟨h, hh, hr⟩ := List.mem_flatMap.mp (hrewrites ▸ hr)
  exact Script.denoted?_eq_units_iff
    (Header.quote_eq_of_scan hscan hh (Document.mem_literals_of_mem_rewritesOf hr))

theorem linked_iff_denotes_key (fs : FileTree) (root : Path) (literal : Text) :
    Linked (doc.resources.map (fragment fs root)) literal ↔
      ∃ r ∈ doc.rewrites, denoted? literal = some (units r.key) := by
  constructor
  · rintro ⟨name, hname, f, hf⟩
    obtain ⟨resource, hresource, rfl⟩ :=
      exists_eq_units_of_definers (hf ▸ List.mem_singleton_self f)
    obtain ⟨r, hr, hkey⟩ := List.mem_map.mp
      (((names_of_read hread).2 _).mp (List.mem_map_of_mem hresource))
    exact ⟨r, hr, hkey ▸ hname⟩
  · rintro ⟨r, hr, hname⟩
    exact ⟨_, hname, exists_definer hread fs root hr⟩

theorem spliced_of_remap? {out : Text} (hremap : doc.remap? code = some out) :
    Document.Spliced 0 doc.rewrites code out := by
  obtain ⟨headers, hscan, hdoc⟩ := Document.read_eq_ok_iff.mp hread
  obtain ⟨-, hrewrites, -, -⟩ := Document.eq_of_ofHeaders hdoc
  have hstands : ∀ r ∈ doc.rewrites, r.literal.StandsIn code := fun r hr =>
    Document.standsIn_of_mem_allRewrites hscan (hrewrites ▸ hr)
  have hordered := (Document.start_le_of_splice? (Option.isSome_of_eq_some hremap)).2
  obtain ⟨out', hout'⟩ := Document.exists_spliced (List.nil_append code).symm hstands
    (fun _ _ => Nat.zero_le _) hordered
  obtain rfl : out' = out := Option.some.inj (hout'.splice?.symm.trans hremap)
  exact hout'

end

/-- A key is made of characters that can stand between two quotes if the module name and the literal
are. -/
theorem isPlain_of_mem_rewritesOf {h : Header} {r : Rewrite} (hr : r ∈ Document.rewritesOf h)
    (hname : IsPlain r.literal.quote h.name.content)
    (hliteral : IsPlain r.literal.quote r.literal.content)
    (hquote : r.literal.quote = '"' ∨ r.literal.quote = '\'') : IsPlain r.literal.quote r.key := by
  have hown : ∀ c ∈ "/.!textjsonbase64buffercssdirectory".toList,
      c ≠ r.literal.quote ∧ c ≠ '\\' ∧ c ≠ '\n' ∧ c ≠ '\r' := by
    rcases hquote with hq | hq <;> rw [hq] <;> exact List.all_iff_forall_prop.mp (by decide)
  have hdirective : ∀ d : Directive, ∀ c ∈ d.name.toList,
      c ∈ "/.!textjsonbase64buffercssdirectory".toList := by
    intro d
    cases d <;> exact List.all_iff_forall_prop.mp (by decide)
  obtain ⟨-, hkey⟩ := Document.mem_rewritesOf_iff.mp hr
  exact ResourceKey.forall_mem_of_ofToken? (hown _ (by decide)) (hown _ (by decide))
    (hown _ (by decide)) (fun d c hc => hown c (hdirective d c hc)) hname
    (fun c hc => hliteral c (Text.mem_of_mem_trim hc)) hkey

/-! ## Linking -/

/-- How a literal of a header that is to be replaced relates to the fragments. -/
structure LinksTo (fragments : List Text) (doc : Document) (h : Header) (r : Rewrite) : Prop where
  /-- One fragment defines the module of its key. -/
  definer : ∃ f, definers fragments (units r.key) = [f]
  /-- It denotes the name of this module exactly if its key can stand between its quotes. -/
  own : denoted? r.spelling = some (units r.key) ↔ IsPlain r.literal.quote r.key
  /-- It is linked exactly if it denotes the key of any literal. -/
  linked : Linked fragments r.spelling ↔
    ∃ r' ∈ doc.rewrites, denoted? r.spelling = some (units r'.key)
  /-- It is linked if it is plain and the name of its module is. -/
  plain : IsPlain r.literal.quote h.name.content → IsPlain r.literal.quote r.literal.content →
    Linked fragments r.spelling

/-- **Linking of resources.** Every literal that is replaced has the fragment of its key, but it
denotes the name of this fragment exactly if the key needs no escapes between its quotes. -/
theorem linked_iff {code out : Text} {doc : Document} (hread : Document.read code = .ok doc)
    (hremap : doc.remap? code = some out) (fs : FileTree) (root : Path) :
    ∃ headers, Header.scan code = .ok headers ∧ doc.rewrites = Document.allRewrites headers ∧
      Document.Spliced 0 doc.rewrites code out ∧
      inject fs root code =
        some (.ok (['\n'].intercalate (doc.resources.map (fragment fs root) ++ [out]))) ∧
      ∀ h ∈ headers, ∀ r ∈ Document.rewritesOf h,
        LinksTo (doc.resources.map (fragment fs root)) doc h r := by
  obtain ⟨headers, hscan, hdoc⟩ := Document.read_eq_ok_iff.mp hread
  obtain ⟨-, hrewrites, -, -⟩ := Document.eq_of_ofHeaders hdoc
  refine ⟨headers, hscan, hrewrites, spliced_of_remap? hread hremap, ?_, fun h hh r hr => ?_⟩
  · exact inject_eq_ok_iff.mpr ⟨doc, out, hread, hremap, rfl⟩
  · have hmem : r ∈ doc.rewrites := hrewrites ▸ List.mem_flatMap.mpr ⟨h, hh, hr⟩
    have hquote := Header.quote_eq_of_scan hscan hh (Document.mem_literals_of_mem_rewritesOf hr)
    refine ⟨exists_definer hread fs root hmem, denotes_iff_isPlain hread hmem,
      linked_iff_denotes_key hread fs root _, fun hname hliteral => ?_⟩
    have hplain := isPlain_of_mem_rewritesOf hr hname hliteral hquote
    exact (linked_iff_denotes_key hread fs root _).mpr
      ⟨r, hmem, (denotes_iff_isPlain hread hmem).mpr hplain⟩

/-- A literal with an escape in its path. -/
def escapedPath : Text :=
  ("define(\"index\", [\"require\", \"exports\", \"text!./caf\\u00e9.txt\"], " ++
    "function (require, exports, t) \x7b\n\x7d);\n").toList

/-- A tree without files. -/
def noFiles : FileTree where
  entries := []
  current := []

/-- Its one literal is no name of a fragment. -/
theorem escaped_path_not_linked :
    ∃ doc out r, Document.read escapedPath = .ok doc ∧ doc.remap? escapedPath = some out ∧
      doc.rewrites = [r] ∧ r.spelling = "\"text!caf\\u00e9.txt\"".toList ∧
      denoted? r.spelling = some (units "text!café.txt".toList) ∧
      (∃ f, definers (doc.resources.map (fragment noFiles [])) (units "text!caf\\u00e9.txt".toList) =
        [f]) ∧
      ¬ Linked (doc.resources.map (fragment noFiles [])) r.spelling := by
  obtain ⟨doc, hread⟩ : ∃ doc, Document.read escapedPath = .ok doc :=
    Outcome.exists_eq_ok (by decide +kernel)
  have hsome : (Document.read escapedPath).map (fun doc => (doc.remap? escapedPath).isSome) =
      .ok true := by decide +kernel
  have hqueue : (Document.read escapedPath).map Document.rewrites =
      .ok [⟨⟨39, '"', "text!./caf\\u00e9.txt".toList⟩, "text!caf\\u00e9.txt".toList⟩] := by
    decide +kernel
  have hreplaced := Outcome.eq_of_map_eq_ok hread hsome
  obtain ⟨out, hremap⟩ := Option.isSome_iff_exists.mp hreplaced
  have hrewrites := Outcome.eq_of_map_eq_ok hread hqueue
  obtain ⟨headers, -, hall, -, -, hlinks⟩ := linked_iff hread hremap noFiles []
  obtain ⟨h, hh, hr⟩ := List.mem_flatMap.mp (hall ▸ hrewrites ▸ List.mem_singleton_self _)
  obtain ⟨hdefiner, -, hlinked, -⟩ := hlinks h hh _ hr
  refine ⟨doc, out, _, hread, hremap, hrewrites, rfl, by decide +kernel, hdefiner, ?_⟩
  rw [hlinked, hrewrites]
  decide +kernel

end AmdBundle.Fragment
