import AmdBundle.Proofs.Document.Tables
import AmdBundle.Proofs.Path.Stack
import AmdBundle.Resource.Fragment

/-!
# Files stay where they are when the last module stands in a folder

The compiler puts a module into the folders of its name. The files of resources are then looked for
as many steps further up, so they are found where the keys say, seen from the place above these
folders.

* `isAbsolute_resolve` : the path of a key is relative;
* `relocation_intercalate` : one step up for every folder in the name of the last module;
* `sourcePath_of_read` : the way up stands in front of the path of every key;
* `filePath_anchored` : all steps up are taken back by the folders below the root.
-/

set_option autoImplicit false

namespace AmdBundle

/-! ## The paths of keys -/

namespace ResourceKey

/-- A part that a path can keep. -/
def CanStay (part : Text) : Prop :=
  part ≠ [] ∧ '/' ∉ part

theorem canStay_of_mem_resolvedParts (moduleName path : Text) :
    ∀ part ∈ resolvedParts moduleName path, CanStay part := by
  refine Path.forall_mem_cleanParts ⟨by decide, by decide⟩ fun part hpart hne => ⟨hne, ?_⟩
  rcases List.mem_append.mp hpart with hpart | hpart
  · exact Lists.not_mem_of_mem_splitOn hpart
  · exact Lists.not_mem_of_mem_splitOn hpart

/-- No path of a key starts at the root. -/
theorem isAbsolute_resolve (moduleName path : Text) :
    Path.isAbsolute (resolve moduleName path) = false := by
  have hparts := canStay_of_mem_resolvedParts moduleName path
  unfold resolve
  cases hresolved : resolvedParts moduleName path with
  | nil => rfl
  | cons first more =>
    obtain ⟨hne, hslash⟩ := hparts first (by simp [hresolved])
    obtain ⟨c, rest, rfl⟩ := List.exists_cons_of_ne_nil hne
    have hc : c ≠ '/' := fun heq => hslash (by simp [heq])
    simp [Lists.intercalate_cons, Path.isAbsolute, hc]

/-- The last module stands one step below the top for every folder in its name. -/
theorem relocation_intercalate {folders : List Text} {last : Text}
    (h : ∀ part ∈ folders ++ [last], Path.IsName part) :
    relocation (['/'].intercalate (folders ++ [last])) = Path.climb folders.length := by
  have hsplit : List.splitOn '/' (['/'].intercalate (folders ++ [last])) = folders ++ [last] :=
    List.splitOn_intercalate '/' (fun part hpart => (h part hpart).noSlash) (by simp)
  have hall : (folders ++ [last]).filter (fun part => !part.isEmpty) = folders ++ [last] := by
    refine List.filter_eq_self.mpr fun part hpart => ?_
    have hidle := (h part hpart).notIdle
    cases part with
    | nil => cases hidle
    | cons c part => rfl
  unfold relocation Path.climb
  rw [hsplit, hall, List.length_append, List.length_singleton, Nat.add_sub_cancel]

end ResourceKey

/-! ## The files of a document -/

namespace Document

theorem wayUp_of_startModule? {doc : Document} {entry : Module}
    (h : doc.startModule? = some entry) :
    wayUp doc.modules = ResourceKey.relocation entry.name := by
  have hlast : doc.modules.getLast? = some entry := h
  unfold wayUp
  split
  · next last heq => rw [Option.some.inj (hlast.symm.trans heq)]
  · next hnone => cases hlast.symm.trans hnone

/-- What the resources of a document have in common. -/
theorem sourcePath_of_read {code : Text} {doc : Document} (h : read code = .ok doc) {r : Resource}
    (hr : r ∈ doc.resources) : ∃ moduleName path,
      r.name = ResourceKey.key r.directive (ResourceKey.resolve moduleName path) ∧
      r.sourcePath = wayUp doc.modules ++ ResourceKey.resolve moduleName path := by
  obtain ⟨headers, -, hdoc⟩ := read_eq_ok_iff.mp h
  obtain ⟨-, hrewrites, hremaps, hresources⟩ := eq_of_ofHeaders hdoc
  obtain ⟨k, hk, hof⟩ := Lists.exists_of_mem_right hresources hr
  rw [hremaps, hrewrites] at hk
  obtain ⟨header, -, l, -, hkey⟩ := mem_keys_iff.mp hk
  obtain ⟨front, path, d, -, -, -, rfl⟩ := ResourceKey.ofToken?_eq_some_iff.mp hkey
  rw [Resource.ofKey_key] at hof
  obtain rfl := Except.ok.inj hof
  exact ⟨header.name.content, Text.trim Text.isBlank path, rfl, rfl⟩

end Document

/-! ## Seen from above -/

namespace Fragment

/-- **Every file is found where its key says**, seen from above the folders in the name of the last
module. -/
theorem filePath_anchored {code : Text} {doc : Document} (h : Document.read code = .ok doc)
    {entry : Module} (hentry : doc.startModule? = some entry) {folders : List Text} {last : Text}
    (hname : entry.name = ['/'].intercalate (folders ++ [last]))
    (hnames : ∀ part ∈ folders ++ [last], Path.IsName part) (root : Path) :
    ∀ r ∈ doc.resources, ∃ path, r.name = ResourceKey.key r.directive path ∧
      filePath (folders.foldl Path.join root) r = Path.clean (Path.join root path) ∧
      ∀ fs, fragment fs (folders.foldl Path.join root) r =
        module r.name (value fs (Path.clean (Path.join root path)) r.directive) := by
  intro r hr
  obtain ⟨moduleName, path, hkey, hsource⟩ := Document.sourcePath_of_read h hr
  have hway : Document.wayUp doc.modules = Path.climb folders.length := by
    rw [Document.wayUp_of_startModule? hentry, hname]
    exact ResourceKey.relocation_intercalate hnames
  have hfolders : ∀ part ∈ folders, Path.IsName part := fun part hpart =>
    hnames part (List.mem_append_left _ hpart)
  have hpath : filePath (folders.foldl Path.join root) r =
      Path.clean (Path.join root (ResourceKey.resolve moduleName path)) := by
    rw [filePath, hsource, hway]
    exact Path.clean_join_climb hfolders root (ResourceKey.isAbsolute_resolve moduleName path)
  refine ⟨_, hkey, hpath, fun fs => ?_⟩
  rw [fragment, hpath]

/-- A module in two folders, with a file beside it and one above the root. -/
def nestedModule : Text :=
  "define(\"src/app/index\", [\"css!./style.css\", \"text!../../../up.txt\"], function".toList

theorem filePath_anchored_nested :
    ∃ doc, Document.read nestedModule = .ok doc ∧
      doc.resources.map Resource.sourcePath =
        ["../../src/app/style.css".toList, "../../../up.txt".toList] ∧
      doc.resources.map (filePath "../w/src/app".toList) =
        ["../w/src/app/style.css".toList, "../up.txt".toList] ∧
      ∀ r ∈ doc.resources, ∃ path, r.name = ResourceKey.key r.directive path ∧
        filePath "../w/src/app".toList r = Path.clean (Path.join "../w".toList path) ∧
        ∀ fs, fragment fs "../w/src/app".toList r =
          module r.name (value fs (Path.clean (Path.join "../w".toList path)) r.directive) := by
  obtain ⟨doc, hdoc⟩ : ∃ doc, Document.read nestedModule = .ok doc :=
    Outcome.exists_eq_ok (by decide +kernel)
  have hsource : (Document.read nestedModule).map (fun doc => doc.resources.map Resource.sourcePath) =
      .ok ["../../src/app/style.css".toList, "../../../up.txt".toList] := by decide +kernel
  have hfiles : (Document.read nestedModule).map
      (fun doc => doc.resources.map (filePath "../w/src/app".toList)) =
        .ok ["../w/src/app/style.css".toList, "../up.txt".toList] := by decide +kernel
  have hentry : (Document.read nestedModule).map (fun doc => doc.startModule?.map Module.name) =
      .ok (some "src/app/index".toList) := by decide +kernel
  have hlast := Outcome.eq_of_map_eq_ok hdoc hentry
  obtain ⟨entry, hstart, hspelled⟩ := Option.map_eq_some_iff.mp hlast
  have hname : entry.name = ['/'].intercalate (["src".toList, "app".toList] ++ ["index".toList]) :=
    hspelled.trans (by decide)
  have hnames : ∀ part ∈ ["src".toList, "app".toList] ++ ["index".toList], Path.IsName part := by
    intro part hpart
    have hplain : '/' ∉ part ∧ Path.isIdle part = false ∧ part ≠ Path.up := by
      revert part
      decide
    exact ⟨hplain.1, hplain.2.1, hplain.2.2⟩
  have hanchored := filePath_anchored hdoc hstart hname hnames "../w".toList
  have hsources := Outcome.eq_of_map_eq_ok hdoc hsource
  have hpaths := Outcome.eq_of_map_eq_ok hdoc hfiles
  exact ⟨doc, hdoc, hsources, hpaths, hanchored⟩

end Fragment

end AmdBundle
