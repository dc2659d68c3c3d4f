import AmdBundle.Proofs.Document.Reading

/-!
# The tables of a document agree

`tables_agree` : the modules, the resources and the table of keys of a document that was read say the
same as the headers of its text. They are filled in one pass over all literals, while several
spellings may mean one key and one spelling may mean several keys.

* `NamesResource`, `NamesModule` : the two kinds of dependencies;
* `Agrees` : what holds between some headers and their document.
-/

set_option autoImplicit false

namespace AmdBundle.Document

/-- The dependency is the key of exactly one resource. The directive of the resource stands before
the first exclamation mark; what stands behind it is the path of its file, seen from the last
module. -/
structure NamesResource (doc : Document) (dependency : Text) : Prop where
  key : dependency ∈ doc.remaps.map Prod.fst
  resource : ∃ r, doc.resources.filter (fun r => r.name = dependency) = [r] ∧
    ∃ path entry, '!' ∉ r.directive.name.toList ∧
      dependency = r.directive.name.toList ++ '!' :: path ∧ doc.startModule? = some entry ∧
      r.sourcePath = ResourceKey.relocation entry.name ++ path

/-- No directive stands before the first exclamation mark of the dependency, not even between
blanks. -/
def NamesModule (dependency : Text) : Prop :=
  ∀ front path, dependency = front ++ '!' :: path → '!' ∉ front →
    ∀ d : Directive, Text.trim Text.isBlank front ≠ d.name.toList

/-- What holds between the headers of a text and its document. -/
structure Agrees (headers : List Header) (doc : Document) : Prop where
  /-- The definitions are those of all resources, then those of all modules. -/
  defines : doc.defines = doc.resources.map .resource ++ doc.modules.map .module
  /-- There is one module for each header, in order, with one dependency for each literal: the key of
  the literal, or else its token. -/
  modules : List.Forall₂ (fun h m => m.name = h.name.content ∧
    List.Forall₂ (fun l d => keyOf? h l = some d ∧ NamesResource doc d ∨
      keyOf? h l = none ∧ d = token l ∧ NamesModule d) h.dependencies m.dependencies)
    headers doc.modules
  /-- No two resources have one name. -/
  distinct : (doc.resources.map Resource.name).Nodup
  /-- The names of the resources are the keys of the table. -/
  names : doc.resources.map Resource.name = doc.remaps.map Prod.fst
  /-- The keys stand in the order in which they first occur in any header. -/
  keys : doc.remaps.map Prod.fst =
    (headers.flatMap fun h => h.dependencies.filterMap (keyOf? h)).eraseDups
  /-- With a key stand all tokens that mean it and nothing else, each once. -/
  spellings : ∀ k tokens, (k, tokens) ∈ doc.remaps → tokens ≠ [] ∧ tokens.Nodup ∧
    ∀ t, t ∈ tokens ↔ ∃ h ∈ headers, ∃ l ∈ h.dependencies, keyOf? h l = some k ∧ token l = t

/-! ## Keys and spellings -/

theorem map_key_allRewrites (headers : List Header) : (allRewrites headers).map Rewrite.key =
    headers.flatMap fun h => h.dependencies.filterMap (keyOf? h) := by
  simp [allRewrites, rewritesOf, rewriteOf?, List.map_flatMap, List.map_filterMap, Function.comp_def]

theorem mem_spellingsOf_iff {headers : List Header} {k t : Text} :
    t ∈ spellingsOf (allRewrites headers) k ↔
      ∃ h ∈ headers, ∃ l ∈ h.dependencies, keyOf? h l = some k ∧ token l = t := by
  rw [spellingsOf, List.mem_eraseDups, List.mem_map]
  constructor
  · rintro ⟨r, hr, rfl⟩
    obtain ⟨hr, hkey⟩ := List.mem_filter.mp hr
    obtain ⟨h, hh, hl, hr⟩ := mem_allRewrites_iff.mp hr
    exact ⟨h, hh, r.literal, hl, hr.trans (congrArg some (of_decide_eq_true hkey)), rfl⟩
  · rintro ⟨h, hh, l, hl, hkey, rfl⟩
    have hr : (⟨l, k⟩ : Rewrite) ∈ allRewrites headers := mem_allRewrites_iff.mpr ⟨h, hh, hl, hkey⟩
    exact ⟨⟨l, k⟩, List.mem_filter.mpr ⟨hr, decide_eq_true rfl⟩, rfl⟩

theorem eq_of_mem_remapsOf {rewrites : List Rewrite} {k : Text} {tokens : List Text}
    (h : (k, tokens) ∈ remapsOf rewrites) :
    k ∈ rewrites.map Rewrite.key ∧ tokens = spellingsOf rewrites k := by
  rw [remapsOf_eq, List.mem_map] at h
  obtain ⟨k', hk', heq⟩ := h
  obtain ⟨rfl, rfl⟩ := Prod.mk.inj heq
  exact ⟨List.mem_eraseDups.mp hk', rfl⟩

theorem mem_keys_iff {headers : List Header} {k : Text} :
    k ∈ (remapsOf (allRewrites headers)).map Prod.fst ↔
      ∃ h ∈ headers, ∃ l ∈ h.dependencies, keyOf? h l = some k := by
  rw [keys_remapsOf, List.mem_eraseDups, map_key_allRewrites]
  simp only [List.mem_flatMap, List.mem_filterMap]

/-! ## Resources -/

theorem name_of_ofKey {key way : Text} {r : Resource} (h : Resource.ofKey key way = .ok r) :
    r.name = key := by
  unfold Resource.ofKey at h
  split at h
  · cases h
  · split at h
    · cases h
    · rw [← Except.ok.inj h]

theorem map_name_of_forall₂ {way : Text} {keys : List Text} {resources : List Resource}
    (h : List.Forall₂ (fun key r => Resource.ofKey key way = .ok r) keys resources) :
    resources.map Resource.name = keys := by
  induction h with
  | nil => rfl
  | cons hr _ ih => rw [List.map_cons, ih, name_of_ofKey hr]

/-- A name that stands once among the resources is the name of one. -/
theorem exists_filter_eq_singleton {resources : List Resource} {k : Text}
    (hnodup : (resources.map Resource.name).Nodup) (hk : k ∈ resources.map Resource.name) :
    ∃ r ∈ resources, r.name = k ∧ resources.filter (fun r => r.name = k) = [r] := by
  induction resources with
  | nil => cases hk
  | cons r resources ih =>
    obtain ⟨hr, hnodup⟩ := List.nodup_cons.mp hnodup
    by_cases hname : r.name = k
    · have hothers : resources.filter (fun r => r.name = k) = [] := by
        rw [List.filter_eq_nil_iff]
        intro r' hr' hname'
        exact hr (List.mem_map.mpr ⟨r', hr', (of_decide_eq_true hname').trans hname.symm⟩)
      refine ⟨r, List.mem_cons_self, hname, ?_⟩
      rw [List.filter_cons_of_pos (by simpa using hname), hothers]
    · obtain ⟨r', hr', hname', hfilter⟩ := ih hnodup ((List.mem_cons.mp hk).resolve_left (Ne.symm hname))
      refine ⟨r', List.mem_cons_of_mem _ hr', hname', ?_⟩
      rw [List.filter_cons_of_neg (by simpa using hname), hfilter]

theorem wayUp_eq {modules : List Module} (h : modules ≠ []) :
    ∃ entry, modules.getLast? = some entry ∧ wayUp modules = ResourceKey.relocation entry.name := by
  have hlast : modules.getLast? = some (modules.getLast h) := List.getLast?_eq_some_getLast h
  exact ⟨modules.getLast h, hlast, by rw [wayUp, hlast]⟩

theorem namesResource_of_keyOf? {headers : List Header} {doc : Document}
    (hdoc : ofHeaders headers = .ok doc) {h : Header} (hh : h ∈ headers) {l : Literal}
    (hl : l ∈ h.dependencies) {k : Text} (hk : keyOf? h l = some k) : NamesResource doc k := by
  obtain ⟨hmodules, hrewrites, hremaps, hresources⟩ := eq_of_ofHeaders hdoc
  have hkey : k ∈ doc.remaps.map Prod.fst := by
    rw [hremaps, hrewrites]
    exact mem_keys_iff.mpr ⟨h, hh, l, hl, hk⟩
  have hnames := map_name_of_forall₂ hresources
  have hnodup : (doc.resources.map Resource.name).Nodup := by
    rw [hnames, hremaps, keys_remapsOf]
    exact Lists.nodup_eraseDups _
  obtain ⟨r, hr, hname, hfilter⟩ := exists_filter_eq_singleton hnodup (hnames ▸ hkey)
  have hsome : doc.modules ≠ [] := by
    rw [hmodules]
    exact List.ne_nil_of_mem (List.mem_map_of_mem hh)
  obtain ⟨entry, hlast, hway⟩ := wayUp_eq hsome
  obtain ⟨key, -, hof⟩ := Lists.exists_of_mem_right hresources hr
  obtain rfl : key = k := (name_of_ofKey hof).symm.trans hname
  obtain ⟨d, path, rfl⟩ := exists_eq_key_of_keyOf? hk
  rw [Resource.ofKey_key, hway] at hof
  obtain rfl := Except.ok.inj hof
  exact ⟨hkey, _, hfilter, path, entry, d.mark_not_mem_name, rfl, hlast, rfl⟩

/-- A dependency is the key of its literal, and names a resource, or it is a token without one. -/
theorem dependency_cases {headers : List Header} {doc : Document}
    (hdoc : ofHeaders headers = .ok doc) {h : Header} (hh : h ∈ headers) {l : Literal}
    (hl : l ∈ h.dependencies) :
    keyOf? h l = some (dependency h l) ∧ NamesResource doc (dependency h l) ∨
      keyOf? h l = none ∧ dependency h l = token l ∧ NamesModule (dependency h l) := by
  cases hkey : keyOf? h l with
  | some k =>
    left
    rw [dependency, hkey]
    exact ⟨rfl, namesResource_of_keyOf? hdoc hh hl hkey⟩
  | none =>
    right
    rw [dependency, hkey]
    exact ⟨rfl, rfl, ResourceKey.ofToken?_eq_none_iff.mp hkey⟩

/-! ## Everything together -/

theorem agrees_of_ofHeaders {headers : List Header} {doc : Document}
    (hdoc : ofHeaders headers = .ok doc) : Agrees headers doc := by
  obtain ⟨hmodules, hrewrites, hremaps, hresources⟩ := eq_of_ofHeaders hdoc
  have hnames := map_name_of_forall₂ hresources
  rw [hrewrites] at hremaps
  constructor
  case defines => rfl
  case modules =>
    rw [hmodules, List.forall₂_map_right_iff, List.forall₂_same]
    intro h hh
    refine ⟨rfl, ?_⟩
    show List.Forall₂ _ h.dependencies (h.dependencies.map (dependency h))
    rw [List.forall₂_map_right_iff, List.forall₂_same]
    exact fun l hl => dependency_cases hdoc hh hl
  case distinct =>
    rw [hnames, hremaps, keys_remapsOf]
    exact Lists.nodup_eraseDups _
  case names => exact hnames
  case keys => rw [hremaps, keys_remapsOf, map_key_allRewrites]
  case spellings =>
    intro k tokens hmem
    rw [hremaps] at hmem
    obtain ⟨hk, rfl⟩ := eq_of_mem_remapsOf hmem
    obtain ⟨r, hr, rfl⟩ := List.mem_map.mp hk
    obtain ⟨h, hh, hl, hkey⟩ := mem_allRewrites_iff.mp hr
    have hspelled := mem_spellingsOf_iff.mpr ⟨h, hh, r.literal, hl, hkey, rfl⟩
    exact ⟨List.ne_nil_of_mem hspelled, Lists.nodup_eraseDups _, fun t => mem_spellingsOf_iff⟩

/-- **The tables of a document agree** with each other and with the headers of its text. -/
theorem tables_agree {code : Text} {doc : Document} (h : read code = .ok doc) :
    ∃ headers, Header.scan code = .ok headers ∧ Agrees headers doc := by
  obtain ⟨headers, hscan, hdoc⟩ := read_eq_ok_iff.mp h
  exact ⟨headers, hscan, agrees_of_ofHeaders hdoc⟩

/-- A header that spells one key in two ways. -/
def twoSpellings : Text :=
  "define(\"lib/a\", [\"require\", \"text!./x!y\", \" text ! ./x!y\"], function".toList

theorem tables_agree_two_spellings :
    ∃ doc, read twoSpellings = .ok doc ∧
      doc.remaps = [("text!lib/x!y".toList, ["text!./x!y".toList, "text ! ./x!y".toList])] ∧
      ∃ headers, Header.scan twoSpellings = .ok headers ∧ Agrees headers doc := by
  obtain ⟨doc, hdoc⟩ : ∃ doc, read twoSpellings = .ok doc :=
    Outcome.exists_eq_ok (by decide +kernel)
  have hremaps : (read twoSpellings).map Document.remaps =
      .ok [("text!lib/x!y".toList, ["text!./x!y".toList, "text ! ./x!y".toList])] := by
    decide +kernel
  exact ⟨doc, hdoc, Outcome.eq_of_map_eq_ok hdoc hremaps, tables_agree hdoc⟩

end AmdBundle.Document
