import AmdBundle.Proofs.Bundle.Failures
import AmdBundle.Proofs.Header.Bare

/-!
# Texts that spell their resources in another way

What a bundle is made of, the resources, their order and their modules, depends on the keys of the
tokens and not on how the tokens are spelled. Two spellings of a key are not equally long, so nothing
stands at the same place in two such texts; what stands between their dependencies is the same.

* `between` : the text between some literals; `eq_of_spliced` : two texts with the same text between
  their literals become one if these are replaced by the same;
* `spliced_filterMap` : a literal without a key may as well be replaced by itself;
* `Respelled` : two texts that differ in the spelling of their resources;
* `bundle_respelled` : they have one bundle.
-/

set_option autoImplicit false

namespace AmdBundle

/-! ## Headers without escapes -/

namespace Header

theorem exists_eq_place_of_mem_placed {l : Literal} {start : Nat} {tokens : List Token}
    (h : l ∈ placed start tokens) : ∃ (q : Quoted) (n : Nat), l = q.place n := by
  induction tokens generalizing start with
  | nil => cases h
  | cons t more ih =>
    cases t with
    | literal q =>
      rcases List.mem_cons.mp h with rfl | h
      · exact ⟨q, start, rfl⟩
      · exact ih h
    | blanks b => exact ih h
    | mark m => exact ih h
    | function => exact ih h

section
variable {code : Text} {headers : List Header}

theorem onOneLine_of_plain (hscan : scan code = .ok headers)
    (hplain : ∀ h ∈ headers, ∀ l ∈ h.literals, l.Plain) : OnOneLine code := by
  intro headers' hscan' h hh l hl
  obtain rfl : headers = headers' := Except.ok.inj (hscan.symm.trans hscan')
  have hl' := hplain h hh l hl
  obtain ⟨front, rest, -, s, -, rfl⟩ := (mem_headers_iff hscan).mp hh
  rw [Shape.literals_header] at hl
  obtain ⟨q, n, rfl⟩ := exists_eq_place_of_mem_placed hl
  exact fun hfeed => (Quoted.bare hl' '\n' hfeed).2.1 rfl

theorem standsIn_of_mem_dependencies (hscan : scan code = .ok headers) {h : Header}
    (hh : h ∈ headers) {l : Literal} (hl : l ∈ h.dependencies) : l.StandsIn code := by
  obtain ⟨front, rest, hopens, s, hs, rfl⟩ := (mem_headers_iff hscan).mp hh
  exact Shape.standsIn_of_mem_literals hopens.split hs (List.mem_cons_of_mem _ hl)

/-- The dependencies of a text come one behind the other if no header hides in a literal. -/
theorem pairwise_dependencies (hline : OnOneLine code) (hscan : scan code = .ok headers) :
    (headers.flatMap dependencies).Pairwise (fun l l' => l.stop ≤ l'.start) := by
  rw [List.pairwise_flatMap, Lists.pairwise_iff_of_sorted (pairwise_line_of_scan hscan)]
  refine ⟨fun h hh => (List.pairwise_cons.mp (Document.pairwise_literals_of_scan hscan hh)).2, ?_⟩
  intro h hh h' hh' hlt l hl l' hl'
  rcases hides_or_before hscan hh hh' hlt with
    hbefore | ⟨outer, houter, front, rest, hopens, -, hhides⟩
  · exact hbefore l (List.mem_cons_of_mem _ hl) l' (List.mem_cons_of_mem _ hl')
  · exact absurd hhides (not_hides_of_onOneLine hline hscan hh houter hopens.split)

end

end Header

namespace Document
open Header (scan)

/-! ## The text between literals -/

/-- The parts of a text, before which `start` characters stand, between some literals. -/
def between (start : Nat) : List Literal → Text → List Text
  | [], text => [text]
  | l :: more, text => text.take (l.start - start) :: between l.stop more (text.drop (l.stop - start))

theorem between_cons {start : Nat} {l : Literal} (more : List Literal) {kept : Text} (text : Text)
    (place : l.start = start + kept.length) :
    between start (l :: more) (kept ++ (l.spelling ++ text)) = kept :: between l.stop more text := by
  have hkept : l.start - start = kept.length := by omega
  have hstop : l.stop - start = (kept ++ l.spelling).length := by
    rw [List.length_append, length_spelling, Literal.stop]
    omega
  rw [between, hkept, hstop, List.take_left, ← List.append_assoc, List.drop_left]

/-- Two texts with the same text between their literals become one if these are replaced by the
same. -/
theorem eq_of_spliced {start start' : Nat} {rewrites rewrites' : List Rewrite}
    {text text' out out' : Text} (h : Spliced start rewrites text out)
    (h' : Spliced start' rewrites' text' out')
    (hspelled : rewrites.map Rewrite.spelling = rewrites'.map Rewrite.spelling)
    (hkept : between start (rewrites.map Rewrite.literal) text =
      between start' (rewrites'.map Rewrite.literal) text') : out = out' := by
  induction h generalizing start' rewrites' text' out' with
  | done start text =>
    cases h' with
    | done => simpa [between] using hkept
    | replace => cases hspelled
  | replace kept place _ ih =>
    cases h' with
    | done => cases hspelled
    | replace kept' place' tail' =>
      obtain ⟨hfirst, hmore⟩ := List.cons.inj hspelled
      rw [List.map_cons, List.map_cons, between_cons _ _ place, between_cons _ _ place'] at hkept
      obtain ⟨rfl, hrest⟩ := List.cons.inj hkept
      rw [hfirst, ih tail' hmore hrest]

/-! ## All dependencies with their keys -/

/-- A dependency and the key it has if it is a resource. -/
structure Keyed where
  literal : Literal
  key? : Option Text

/-- What is replaced if the dependency is a resource. -/
def Keyed.rewrite? (d : Keyed) : Option Rewrite :=
  d.key?.map fun key => ⟨d.literal, key⟩

/-- The same, where a dependency that is no resource is replaced by itself. -/
def Keyed.rewrite (d : Keyed) : Rewrite :=
  ⟨d.literal, d.key?.getD d.literal.content⟩

def keyed (headers : List Header) : List Keyed :=
  headers.flatMap fun h => h.dependencies.map fun l => ⟨l, keyOf? h l⟩

theorem map_literal_keyed (headers : List Header) :
    (keyed headers).map Keyed.literal = headers.flatMap Header.dependencies := by
  simp [keyed, List.map_flatMap, Function.comp_def]

theorem allRewrites_eq (headers : List Header) :
    allRewrites headers = (keyed headers).filterMap Keyed.rewrite? := by
  simp only [allRewrites, keyed, List.filterMap_flatMap, List.filterMap_map]
  rfl

theorem map_key_filterMap (ds : List Keyed) :
    (ds.filterMap Keyed.rewrite?).map Rewrite.key = ds.filterMap Keyed.key? := by
  induction ds with
  | nil => rfl
  | cons d ds ih =>
    cases hkey : d.key? with
    | none => simpa [Keyed.rewrite?, hkey] using ih
    | some k => simpa [Keyed.rewrite?, hkey] using ih

/-- A literal that is replaced by itself is as good as one that is kept. -/
theorem spliced_filterMap {start : Nat} {ds : List Keyed} {text out : Text}
    (h : Spliced start (ds.map Keyed.rewrite) text out) :
    Spliced start (ds.filterMap Keyed.rewrite?) text out := by
  induction ds generalizing start text out with
  | nil => exact h
  | cons d ds ih =>
    rw [List.map_cons] at h
    cases h with
    | replace kept place tail =>
      have hmore := ih tail
      cases hkey : d.key? with
      | some k =>
        have hone : d.rewrite? = some d.rewrite := by simp [Keyed.rewrite?, Keyed.rewrite, hkey]
        rw [List.filterMap_cons_some hone]
        exact .replace kept place hmore
      | none =>
        have hself : d.rewrite.spelling = d.rewrite.literal.spelling := by
          simp [Keyed.rewrite, Rewrite.spelling, Literal.spelling, hkey]
        have hstop : d.rewrite.literal.stop =
            start + (kept ++ d.rewrite.literal.spelling).length := by
          rw [List.length_append, length_spelling, Literal.stop, place]
          omega
        rw [List.filterMap_cons_none (by simp [Keyed.rewrite?, hkey]), hself, ← List.append_assoc,
          ← List.append_assoc]
        exact Spliced.keep _ (hstop ▸ hmore)

/-- In a text without escapes all dependencies can be replaced, each by its key or by itself, and
this is the text with the resources replaced. -/
theorem exists_spliced_keyed {code : Text} {headers : List Header} (hscan : scan code = .ok headers)
    (hplain : ∀ h ∈ headers, ∀ l ∈ h.literals, l.Plain) :
    ∃ out, Spliced 0 ((keyed headers).map Keyed.rewrite) code out ∧
      Spliced 0 (allRewrites headers) code out := by
  have hliterals : ((keyed headers).map Keyed.rewrite).map Rewrite.literal =
      headers.flatMap Header.dependencies := by
    rw [List.map_map, ← map_literal_keyed]
    rfl
  have hordered : ((keyed headers).map Keyed.rewrite).Pairwise Rewrite.Before := by
    have hpairs := Header.pairwise_dependencies (Header.onOneLine_of_plain hscan hplain) hscan
    rw [← hliterals, List.pairwise_map] at hpairs
    exact hpairs
  have hstands : ∀ r ∈ (keyed headers).map Keyed.rewrite, r.literal.StandsIn code := by
    intro r hr
    have hl := hliterals ▸ List.mem_map_of_mem hr
    obtain ⟨h, hh, hl⟩ := List.mem_flatMap.mp hl
    exact Header.standsIn_of_mem_dependencies hscan hh hl
  obtain ⟨out, hout⟩ := exists_spliced (List.nil_append code).symm hstands
    (fun _ _ => Nat.zero_le _) hordered
  exact ⟨out, hout, allRewrites_eq headers ▸ spliced_filterMap hout⟩

/-! ## Two spellings -/

/-- Two dependencies between the same quotes, with the same text between them or with the same key,
each in its own module. -/
structure SameDependency (h h' : Header) (l l' : Literal) : Prop where
  quote : l.quote = l'.quote
  means : l.content = l'.content ∨ ∃ k, keyOf? h l = some k ∧ keyOf? h' l' = some k

structure SameHeader (h h' : Header) : Prop where
  name : h.name.content = h'.name.content
  dependencies : List.Forall₂ (SameDependency h h') h.dependencies h'.dependencies

/-- Two texts, scanned, that differ only in how some of their resources are spelled. -/
structure Respelled (code code' : Text) (headers headers' : List Header) : Prop where
  same : List.Forall₂ SameHeader headers headers'
  kept : between 0 (headers.flatMap Header.dependencies) code =
    between 0 (headers'.flatMap Header.dependencies) code'

section
variable {h h' : Header} {l l' : Literal}

theorem SameDependency.keyOf?_eq (hl : SameDependency h h' l l')
    (hname : h.name.content = h'.name.content) : keyOf? h l = keyOf? h' l' := by
  rcases hl.means with hcontent | ⟨k, hk, hk'⟩
  · rw [keyOf?, keyOf?, token, token, hname, hcontent]
  · rw [hk, hk']

theorem SameDependency.dependency_eq (hl : SameDependency h h' l l')
    (hname : h.name.content = h'.name.content) : dependency h l = dependency h' l' := by
  have hkey := hl.keyOf?_eq hname
  rcases hl.means with hcontent | ⟨k, hk, hk'⟩
  · rw [dependency, dependency, hkey, token, token, hcontent]
  · rw [dependency, dependency, hk, hk', Option.getD_some, Option.getD_some]

theorem SameDependency.spelling_eq (hl : SameDependency h h' l l')
    (hname : h.name.content = h'.name.content) :
    (Keyed.rewrite ⟨l, keyOf? h l⟩).spelling = (Keyed.rewrite ⟨l', keyOf? h' l'⟩).spelling := by
  have hkey := hl.keyOf?_eq hname
  rcases hl.means with hcontent | ⟨k, hk, hk'⟩
  · simp [Keyed.rewrite, Rewrite.spelling, hkey, hcontent, hl.quote]
  · simp [Keyed.rewrite, Rewrite.spelling, hk, hk', hl.quote]

end

/-- The modules that two headers make. -/
theorem SameHeader.moduleOf_eq {h h' : Header} (hsame : SameHeader h h') :
    moduleOf h = moduleOf h' := by
  have hdependencies : h.dependencies.map (dependency h) = h'.dependencies.map (dependency h') := by
    rw [← List.forall₂_eq_eq_eq, List.forall₂_map_left_iff, List.forall₂_map_right_iff]
    exact hsame.dependencies.imp fun _ _ hl => hl.dependency_eq hsame.name
  rw [moduleOf, moduleOf, hsame.name, hdependencies]

section
variable {headers headers' : List Header} (h : List.Forall₂ SameHeader headers headers')
include h

theorem map_moduleOf_eq : headers.map moduleOf = headers'.map moduleOf := by
  rw [← List.forall₂_eq_eq_eq, List.forall₂_map_left_iff, List.forall₂_map_right_iff]
  exact h.imp fun _ _ hsame => hsame.moduleOf_eq

theorem forall₂_keyed :
    List.Forall₂ (fun d d' => d.key? = d'.key? ∧ d.rewrite.spelling = d'.rewrite.spelling)
      (keyed headers) (keyed headers') := by
  refine List.rel_flatMap h fun header header' hsame => ?_
  rw [List.forall₂_map_left_iff, List.forall₂_map_right_iff]
  exact hsame.dependencies.imp fun _ _ hl => ⟨hl.keyOf?_eq hsame.name, hl.spelling_eq hsame.name⟩

theorem map_key_allRewrites_eq :
    (allRewrites headers).map Rewrite.key = (allRewrites headers').map Rewrite.key := by
  have hkeys : (keyed headers).map Keyed.key? = (keyed headers').map Keyed.key? := by
    rw [← List.forall₂_eq_eq_eq, List.forall₂_map_left_iff, List.forall₂_map_right_iff]
    exact (forall₂_keyed h).imp fun _ _ hd => hd.1
  have hsome := congrArg (List.filterMap id) hkeys
  rw [List.filterMap_map, List.filterMap_map] at hsome
  rw [allRewrites_eq, allRewrites_eq, map_key_filterMap, map_key_filterMap]
  exact hsome

/-- The resources of a document depend on the keys and on the modules only. -/
theorem resources_eq_of_ofHeaders {doc doc' : Document} (hdoc : ofHeaders headers = .ok doc)
    (hdoc' : ofHeaders headers' = .ok doc') : doc.resources = doc'.resources := by
  obtain ⟨hmodules, hrewrites, hremaps, hresources⟩ := eq_of_ofHeaders hdoc
  obtain ⟨hmodules', hrewrites', hremaps', hresources'⟩ := eq_of_ofHeaders hdoc'
  have hkeys : doc.remaps.map Prod.fst = doc'.remaps.map Prod.fst := by
    rw [hremaps, hremaps', keys_remapsOf, keys_remapsOf, hrewrites, hrewrites',
      map_key_allRewrites_eq h]
  have hsame : doc.modules = doc'.modules := by
    rw [hmodules, hmodules', map_moduleOf_eq h]
  rw [hkeys, hsame] at hresources
  exact Except.ok.inj
    ((Outcome.mapM_eq_ok_iff.mpr hresources).symm.trans (Outcome.mapM_eq_ok_iff.mpr hresources'))

end

/-! ## Two texts -/

section
variable {code code' : Text} {headers headers' : List Header}

theorem exists_remap_respelled (hscan : scan code = .ok headers) (hscan' : scan code' = .ok headers')
    (hplain : ∀ h ∈ headers, ∀ l ∈ h.literals, l.Plain)
    (hplain' : ∀ h ∈ headers', ∀ l ∈ h.literals, l.Plain)
    (h : Respelled code code' headers headers') {doc doc' : Document}
    (hdoc : ofHeaders headers = .ok doc) (hdoc' : ofHeaders headers' = .ok doc') :
    ∃ out, doc.remap? code = some out ∧ doc'.remap? code' = some out := by
  obtain ⟨out, hwhole, hout⟩ := exists_spliced_keyed hscan hplain
  obtain ⟨out', hwhole', hout'⟩ := exists_spliced_keyed hscan' hplain'
  have hspelled : ((keyed headers).map Keyed.rewrite).map Rewrite.spelling =
      ((keyed headers').map Keyed.rewrite).map Rewrite.spelling := by
    rw [List.map_map, List.map_map, ← List.forall₂_eq_eq_eq, List.forall₂_map_left_iff,
      List.forall₂_map_right_iff]
    exact (forall₂_keyed h.same).imp fun _ _ hd => hd.2
  have hkept : between 0 (((keyed headers).map Keyed.rewrite).map Rewrite.literal) code =
      between 0 (((keyed headers').map Keyed.rewrite).map Rewrite.literal) code' := by
    have hkept := h.kept
    rw [← map_literal_keyed, ← map_literal_keyed] at hkept
    rw [List.map_map, List.map_map]
    exact hkept
  obtain rfl := eq_of_spliced hwhole hwhole' hspelled hkept
  refine ⟨out, ?_, ?_⟩
  · rw [remap?, (eq_of_ofHeaders hdoc).2.1]
    exact hout.splice?
  · rw [remap?, (eq_of_ofHeaders hdoc').2.1]
    exact hout'.splice?

end

end Document

open Document in
/-- **Bundles do not depend on the spelling of resources.** Two texts whose headers have no backslash
or quote in a literal, and that differ only in how some resources are spelled, have the same bundle
with all files and all options. -/
theorem bundle_respelled {code code' : Text} {headers headers' : List Header}
    (hscan : Header.scan code = .ok headers) (hscan' : Header.scan code' = .ok headers')
    (hplain : ∀ h ∈ headers, ∀ l ∈ h.literals, l.Plain)
    (hplain' : ∀ h ∈ headers', ∀ l ∈ h.literals, l.Plain)
    (h : Respelled code code' headers headers') (fs : FileTree) (o : BundleOptions) :
    ∃ out, bundle fs o code = some (.ok out) ∧ bundle fs o code' = some (.ok out) := by
  obtain ⟨doc, hdoc⟩ := exists_ofHeaders headers
  obtain ⟨doc', hdoc'⟩ := exists_ofHeaders headers'
  have hread : read code = .ok doc := read_eq_ok_iff.mpr ⟨headers, hscan, hdoc⟩
  have hread' : read code' = .ok doc' := read_eq_ok_iff.mpr ⟨headers', hscan', hdoc'⟩
  have hresources := resources_eq_of_ofHeaders h.same hdoc hdoc'
  obtain ⟨body, hremap, hremap'⟩ := exists_remap_respelled hscan hscan' hplain hplain' h hdoc hdoc'
  refine ⟨_, bundle_eq_ok_iff.mpr ⟨doc, body, hread, hremap, rfl⟩,
    bundle_eq_ok_iff.mpr ⟨doc', body, hread', hremap', ?_⟩⟩
  rw [hresources]

/-- A module that depends on a file beside it. -/
def besideModule : Text :=
  "define(\"a/m\", [\"require\", \"text!./x\"], function () \x7b\x7d);".toList

/-- The same, with blanks, an empty part and two ways around. -/
def aroundModule : Text :=
  "define(\"a/m\", [\"require\", \" text ! ..//a/b/../x\"], function () \x7b\x7d);".toList

/-- A tree in which none of the files is there. -/
def emptyTree : FileTree where
  entries := []
  current := []

def besideHeader : Header :=
  ⟨1, ⟨7, '"', "a/m".toList⟩, [⟨15, '"', "require".toList⟩, ⟨26, '"', "text!./x".toList⟩]⟩

def aroundHeader : Header :=
  ⟨1, ⟨7, '"', "a/m".toList⟩,
    [⟨15, '"', "require".toList⟩, ⟨26, '"', " text ! ..//a/b/../x".toList⟩]⟩

open Document in
theorem bundle_respelled_around :
    Header.scan besideModule = .ok [besideHeader] ∧ Header.scan aroundModule = .ok [aroundHeader] ∧
      (∀ h ∈ [besideHeader], ∀ l ∈ h.literals, l.Plain) ∧
      (∀ h ∈ [aroundHeader], ∀ l ∈ h.literals, l.Plain) ∧
      Respelled besideModule aroundModule [besideHeader] [aroundHeader] ∧
      ∃ out, bundle emptyTree .default besideModule = some (.ok out) ∧
        bundle emptyTree .default aroundModule = some (.ok out) := by
  have hscan : Header.scan besideModule = .ok [besideHeader] := by decide +kernel
  have hscan' : Header.scan aroundModule = .ok [aroundHeader] := by decide +kernel
  have hplain : ∀ h ∈ [besideHeader], ∀ l ∈ h.literals, l.Plain := by decide +kernel
  have hplain' : ∀ h ∈ [aroundHeader], ∀ l ∈ h.literals, l.Plain := by decide +kernel
  have hmeans : SameDependency besideHeader aroundHeader ⟨26, '"', "text!./x".toList⟩
      ⟨26, '"', " text ! ..//a/b/../x".toList⟩ :=
    ⟨rfl, .inr ⟨"text!a/x".toList, by decide +kernel, by decide +kernel⟩⟩
  have hsame : Respelled besideModule aroundModule [besideHeader] [aroundHeader] :=
    ⟨.cons ⟨rfl, .cons ⟨rfl, .inl rfl⟩ (.cons hmeans .nil)⟩ .nil, by decide +kernel⟩
  exact ⟨hscan, hscan', hplain, hplain', hsame,
    bundle_respelled hscan hscan' hplain hplain' hsame _ _⟩

end AmdBundle
