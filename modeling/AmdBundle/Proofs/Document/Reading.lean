import AmdBundle.Document
import AmdBundle.Proofs.Lists
import AmdBundle.Proofs.Outcome
import AmdBundle.Proofs.ResourceKey

/-!
# What reading a text yields

* `moduleOf`, `rewritesOf`, `remapsOf` : what a header or some rewrites say by themselves;
  `foldl_header` : the pass over all headers fills its tables with that, and `keys_foldl_header` : the
  two tables of keys with the same keys in the same order;
* `mem_allRewrites_iff` : the literals to replace are those of all headers that have a key;
* `remapsOf_eq` : the table of keys, each with the spellings that mean it, both in the order of their
  first occurrence;
* `eq_of_ofHeaders` : the parts of a document;
* `exists_ofHeaders` : every key names a resource, so headers always make a document.
-/

set_option autoImplicit false

namespace AmdBundle

theorem Resource.ofKey_key (d : Directive) (path way : Text) :
    Resource.ofKey (ResourceKey.key d path) way =
      .ok ⟨ResourceKey.key d path, way ++ path, d, ["exports".toList]⟩ := by
  simp [Resource.ofKey, ResourceKey.splitOnce_key, Directive.ofName?_name]

/-! ## The pass over all headers -/

namespace Document

/-- What a module depends on by a literal. -/
def dependency (header : Header) (l : Literal) : Text :=
  (keyOf? header l).getD (token l)

def moduleOf (header : Header) : Module :=
  ⟨header.name.content, header.dependencies.map (dependency header)⟩

/-- What has to be replaced for a literal of a header. -/
def rewriteOf? (header : Header) (l : Literal) : Option Rewrite :=
  (keyOf? header l).map fun key => ⟨l, key⟩

/-- The literals of a header that have to be replaced. -/
def rewritesOf (header : Header) : List Rewrite :=
  header.dependencies.filterMap (rewriteOf? header)

/-- All literals that have to be replaced. -/
def allRewrites (headers : List Header) : List Rewrite :=
  headers.flatMap rewritesOf

/-- The table with the spellings of some rewrites. -/
def addSpellings (table : List (Text × List Text)) (rewrites : List Rewrite) :
    List (Text × List Text) :=
  rewrites.foldl (fun table r => addSpelling r.key (token r.literal) table) table

/-- Every key with the spellings that mean it. -/
def remapsOf (rewrites : List Rewrite) : List (Text × List Text) :=
  addSpellings [] rewrites

end Document

namespace Pass
open Document

/-- The pass after literals that have to be replaced. -/
def add (p : Pass) (rewrites : List Rewrite) : Pass where
  modules := p.modules
  remaps := addSpellings p.remaps rewrites
  keys := rewrites.foldl (fun keys r => addKey r.key keys) p.keys
  rewrites := p.rewrites ++ rewrites

theorem add_append (p : Pass) (rewrites more : List Rewrite) :
    p.add (rewrites ++ more) = (p.add rewrites).add more := by
  simp [add, addSpellings]

theorem foldl_literal (h : Header) (literals : List Literal) (p : Pass) (dependencies : List Text) :
    literals.foldl (literal h) (p, dependencies) =
      (p.add (literals.filterMap (rewriteOf? h)), dependencies ++ literals.map (dependency h)) := by
  induction literals generalizing p dependencies with
  | nil => simp [add, addSpellings]
  | cons l literals ih =>
    cases hkey : keyOf? h l with
    | none =>
      have hrewrite : rewriteOf? h l = none := by rw [rewriteOf?, hkey, Option.map_none]
      rw [List.foldl_cons, literal, hkey, ih, List.filterMap_cons_none hrewrite]
      simp [dependency, hkey]
    | some key =>
      have hrewrite : rewriteOf? h l = some ⟨l, key⟩ := by rw [rewriteOf?, hkey, Option.map_some]
      rw [List.foldl_cons, literal, hkey, ih, List.filterMap_cons_some hrewrite]
      simp [add, addSpellings, dependency, hkey]

/-- **The pass fills its tables** with what the headers say, one after the other. -/
theorem foldl_header (headers : List Header) (p : Pass) :
    headers.foldl header p =
      { p.add (allRewrites headers) with modules := p.modules ++ headers.map moduleOf } := by
  induction headers generalizing p with
  | nil => simp [add, addSpellings, allRewrites]
  | cons h headers ih =>
    have hheader : p.header h =
        { p.add (rewritesOf h) with modules := p.modules ++ [moduleOf h] } := by
      simp only [header, foldl_literal, List.nil_append]
      rfl
    have hmore : allRewrites (h :: headers) = rewritesOf h ++ allRewrites headers :=
      List.flatMap_cons
    rw [List.foldl_cons, ih, hheader, hmore]
    simp [add, addSpellings]

theorem map_fst_addSpelling (key token : Text) (table : List (Text × List Text)) :
    (addSpelling key token table).map Prod.fst = addKey key (table.map Prod.fst) := by
  induction table with
  | nil => rfl
  | cons entry table ih =>
    obtain ⟨k, tokens⟩ := entry
    by_cases hkey : k = key
    · simp [addSpelling, addKey, hkey]
    · rw [addSpelling, if_neg hkey, List.map_cons, ih]
      simp only [addKey, List.map_cons, List.contains_cons, beq_eq_false_iff_ne.mpr (Ne.symm hkey),
        Bool.false_or]
      split <;> rfl

/-- **The two tables of keys agree**: whatever was added, both have the same keys in the same order. -/
theorem keys_add {p : Pass} (hp : p.keys = p.remaps.map Prod.fst) (rewrites : List Rewrite) :
    (p.add rewrites).keys = (p.add rewrites).remaps.map Prod.fst := by
  -- The last rewrite is added to both tables at once, so the induction takes rewrites off the end.
  induction rewrites using List.reverseRecOn with
  | nil => exact hp
  | append_singleton rewrites r ih =>
    rw [add_append]
    show addKey r.key (p.add rewrites).keys = (addSpelling r.key (token r.literal) _).map Prod.fst
    rw [map_fst_addSpelling, ih]

theorem keys_foldl_header (headers : List Header) :
    (headers.foldl header .start).keys = (headers.foldl header .start).remaps.map Prod.fst := by
  rw [foldl_header]
  exact keys_add rfl _

end Pass

namespace Document

/-! ## Literals with a key -/

theorem mem_rewritesOf_iff {h : Header} {r : Rewrite} :
    r ∈ rewritesOf h ↔ r.literal ∈ h.dependencies ∧ keyOf? h r.literal = some r.key := by
  simp only [rewritesOf, rewriteOf?, List.mem_filterMap, Option.map_eq_some_iff]
  constructor
  · rintro ⟨l, hl, key, hkey, rfl⟩
    exact ⟨hl, hkey⟩
  · rintro ⟨hl, hkey⟩
    exact ⟨r.literal, hl, r.key, hkey, rfl⟩

theorem mem_allRewrites_iff {headers : List Header} {r : Rewrite} :
    r ∈ allRewrites headers ↔
      ∃ h ∈ headers, r.literal ∈ h.dependencies ∧ keyOf? h r.literal = some r.key := by
  simp only [allRewrites, List.mem_flatMap, mem_rewritesOf_iff]

theorem exists_eq_key_of_keyOf? {h : Header} {l : Literal} {k : Text} (hk : keyOf? h l = some k) :
    ∃ d path, k = ResourceKey.key d path := by
  obtain ⟨front, path, d, -, -, -, rfl⟩ := ResourceKey.ofToken?_eq_some_iff.mp hk
  exact ⟨d, _, rfl⟩

/-! ## The table of keys -/

def addOnce (tokens : List Text) (token : Text) : List Text :=
  if token ∈ tokens then tokens else tokens ++ [token]

/-- The spellings that mean a key, each once. -/
def spellingsOf (rewrites : List Rewrite) (key : Text) : List Text :=
  ((rewrites.filter fun r => r.key = key).map fun r => token r.literal).eraseDups

/-- One more spelling in a table without repeated keys. -/
theorem addSpelling_map (key token : Text) (keys : List Text) (spellings : Text → List Text)
    (hnodup : keys.Nodup) (hnew : key ∉ keys → spellings key = []) :
    addSpelling key token (keys.map fun k => (k, spellings k)) =
      (if key ∈ keys then keys else keys ++ [key]).map fun k =>
        (k, if k = key then addOnce (spellings k) token else spellings k) := by
  induction keys with
  | nil => simp [addSpelling, addOnce, hnew]
  | cons k keys ih =>
    obtain ⟨hk, hnodup⟩ := List.nodup_cons.mp hnodup
    by_cases hkey : k = key
    · subst hkey
      have hothers : keys.map (fun k' => (k', if k' = k then addOnce (spellings k') token else
          spellings k')) = keys.map fun k' => (k', spellings k') := by
        refine List.map_congr_left fun k' hk' => ?_
        rw [if_neg]
        rintro rfl
        exact hk hk'
      rw [List.map_cons, addSpelling, if_pos rfl, if_pos List.mem_cons_self, List.map_cons, hothers]
      simp [addOnce]
    · have hmore := ih hnodup fun hout => hnew (by simp [Ne.symm hkey, hout])
      rw [List.map_cons, addSpelling, if_neg hkey, hmore]
      by_cases hin : key ∈ keys
      · simp [hin, hkey]
      · simp [hin, hkey, Ne.symm hkey]

theorem spellingsOf_concat (rewrites : List Rewrite) (r : Rewrite) (k : Text) :
    spellingsOf (rewrites ++ [r]) k =
      if k = r.key then addOnce (spellingsOf rewrites k) (token r.literal)
      else spellingsOf rewrites k := by
  by_cases hk : k = r.key
  · subst hk
    have hfilter : ((rewrites ++ [r]).filter fun r' => r'.key = r.key) =
        (rewrites.filter fun r' => r'.key = r.key) ++ [r] := by simp
    rw [if_pos rfl, spellingsOf, hfilter, List.map_append, List.map_singleton,
      Lists.eraseDups_concat, spellingsOf, addOnce]
    simp only [List.mem_eraseDups]
  · simp [spellingsOf, hk, Ne.symm hk]

theorem spellingsOf_eq_nil {rewrites : List Rewrite} {k : Text} (hk : k ∉ rewrites.map Rewrite.key) :
    spellingsOf rewrites k = [] := by
  have hnone : rewrites.filter (fun r => r.key = k) = [] := by
    rw [List.filter_eq_nil_iff]
    intro r hr hkey
    exact hk (List.mem_map.mpr ⟨r, hr, of_decide_eq_true hkey⟩)
  simp [spellingsOf, hnone]

/-- **The table of keys.** Every key stands in it once, where it first occurs, with every spelling
that means it. -/
theorem remapsOf_eq (rewrites : List Rewrite) :
    remapsOf rewrites =
      (rewrites.map Rewrite.key).eraseDups.map fun k => (k, spellingsOf rewrites k) := by
  -- The table grows with the last rewrite, so the induction takes rewrites off the end.
  induction rewrites using List.reverseRecOn with
  | nil => rfl
  | append_singleton rewrites r ih =>
    have hstep : remapsOf (rewrites ++ [r]) =
        addSpelling r.key (token r.literal) (remapsOf rewrites) := by
      simp [remapsOf, addSpellings]
    have hnew : r.key ∉ (rewrites.map Rewrite.key).eraseDups → spellingsOf rewrites r.key = [] :=
      fun hout => spellingsOf_eq_nil fun hin => hout (List.mem_eraseDups.mpr hin)
    rw [hstep, ih, addSpelling_map _ _ _ _ (Lists.nodup_eraseDups _) hnew]
    simp only [spellingsOf_concat, List.map_append, List.map_cons, List.map_nil,
      Lists.eraseDups_concat, List.mem_eraseDups]

theorem keys_remapsOf (rewrites : List Rewrite) :
    (remapsOf rewrites).map Prod.fst = (rewrites.map Rewrite.key).eraseDups := by
  simp [remapsOf_eq, Function.comp_def]

/-! ## The parts of a document -/

theorem read_eq_ok_iff {code : Text} {doc : Document} :
    read code = .ok doc ↔ ∃ headers, Header.scan code = .ok headers ∧ ofHeaders headers = .ok doc := by
  unfold read
  cases Header.scan code with
  | error m => simp
  | ok headers => simp

theorem eq_of_ofHeaders {headers : List Header} {doc : Document} (h : ofHeaders headers = .ok doc) :
    doc.modules = headers.map moduleOf ∧ doc.rewrites = allRewrites headers ∧
      doc.remaps = remapsOf doc.rewrites ∧
      List.Forall₂ (fun key r => Resource.ofKey key (wayUp doc.modules) = .ok r)
        (doc.remaps.map Prod.fst) doc.resources := by
  obtain ⟨resources, hresources, h⟩ := Outcome.bind_eq_ok_iff.mp h
  obtain rfl := Except.ok.inj h
  have hkeys := Outcome.mapM_eq_ok_iff.mp hresources
  rw [Pass.keys_foldl_header] at hkeys
  simp only [Pass.foldl_header] at hkeys ⊢
  exact ⟨rfl, rfl, rfl, hkeys⟩

theorem exists_eq_key_of_mem_remapsOf {headers : List Header} {k : Text}
    (hk : k ∈ (remapsOf (allRewrites headers)).map Prod.fst) : ∃ d path, k = ResourceKey.key d path := by
  rw [keys_remapsOf, List.mem_eraseDups, List.mem_map] at hk
  obtain ⟨r, hr, rfl⟩ := hk
  obtain ⟨h, -, -, hkey⟩ := mem_allRewrites_iff.mp hr
  exact exists_eq_key_of_keyOf? hkey

theorem exists_mapM_ofKey (way : Text) {keys : List Text}
    (hkeys : ∀ k ∈ keys, ∃ d path, k = ResourceKey.key d path) :
    ∃ resources, keys.mapM (fun k => Resource.ofKey k way) = .ok resources := by
  induction keys with
  | nil => exact ⟨[], rfl⟩
  | cons k keys ih =>
    obtain ⟨d, path, rfl⟩ := hkeys k List.mem_cons_self
    obtain ⟨resources, hresources⟩ := ih fun k hk => hkeys k (List.mem_cons_of_mem _ hk)
    exact ⟨_, Outcome.mapM_eq_ok_iff.mpr
      (.cons (Resource.ofKey_key d path way) (Outcome.mapM_eq_ok_iff.mp hresources))⟩

theorem exists_ofHeaders (headers : List Header) : ∃ doc, ofHeaders headers = .ok doc := by
  have hkeys : ∀ k ∈ (headers.foldl Pass.header .start).keys, ∃ d path, k = ResourceKey.key d path := by
    rw [Pass.keys_foldl_header, Pass.foldl_header]
    exact fun k hk => exists_eq_key_of_mem_remapsOf hk
  obtain ⟨resources, hresources⟩ := exists_mapM_ofKey
    (wayUp (headers.foldl Pass.header .start).modules) hkeys
  exact ⟨_, Outcome.bind_eq_ok_iff.mpr ⟨resources, hresources, rfl⟩⟩

end Document

end AmdBundle
