import AmdBundle.Proofs.Stylesheet.Faults
import Mathlib

/-!
# A stylesheet with everything that it imports

`inline_in_order` : in a tree without links a stylesheet and its imports become one text exactly if all
files that it reaches can be read and none of them imports itself at any distance. The text has every
one of these files once, behind its imports, and the stylesheet itself at the end.
-/

set_option autoImplicit false

namespace AmdBundle.Stylesheet
variable {fs : FileTree}

theorem lt_chainLimit (fs : FileTree) : fs.entries.length < chainLimit fs := by
  have hpow : fs.entries.length + 2 ≤ (fs.entries.length + 2) ^ (FileTree.linkLimit + 2) :=
    Nat.le_self_pow (by simp) _
  have hlimit : chainLimit fs = (fs.entries.length + 2) ^ (FileTree.linkLimit + 2) := rfl
  omega

theorem exists_limit (fs : FileTree) (path : Path) : ∃ limit, fs.entries.length < limit ∧
    sheetsOf fs path = (load fs limit .start (Path.clean (fs.absolute path))).map Loading.resolved :=
  ⟨chainLimit fs, lt_chainLimit fs, rfl⟩

theorem inline_eq_ok_iff {path : Path} {text : Text} : inline fs path = .ok text ↔
    ∃ sheets, sheetsOf fs path = .ok sheets ∧ text = ['\n'].intercalate (sheets.map Sheet.content) := by
  constructor
  · intro h
    obtain ⟨sheets, hsheets, h⟩ := Outcome.bind_eq_ok_iff.mp h
    exact ⟨sheets, hsheets, (Except.ok.inj h).symm⟩
  · rintro ⟨sheets, hsheets, rfl⟩
    exact Outcome.bind_eq_ok_iff.mpr ⟨sheets, hsheets, rfl⟩

theorem inlined_of_load {fuel : Nat} {root : Path} {l : Loading}
    (h : load fs fuel .start root = .ok l) : Inlined fs root l.resolved := by
  obtain ⟨-, hloaded, ⟨met, hvisits, hpaths⟩, -⟩ := load_extends .nil h
  replace hpaths : l.resolved.map Sheet.path = met.eraseDups := hpaths
  refine ⟨hloaded.isIn, fun q => ?_, hloaded.once, hloaded.behind, ⟨met, hvisits, hpaths⟩, ?_⟩
  · rw [hpaths, List.mem_eraseDups, hvisits.mem_iff]
    simp
  · cases fuel with
    | zero => cases h
    | succ fuel =>
      rcases load_eq_ok h with ⟨hin, -⟩ | ⟨-, -, s, below, -, rfl, -, rfl⟩
      · cases hin
      · simp

/-- A sheet without imports is its own text. -/
theorem inline_of_no_imports {path : Path} {s : Sheet}
    (hopen : openSheet fs (Path.clean (fs.absolute path)) = .ok s) (himports : s.imports = []) :
    inline fs path = .ok s.content := by
  obtain ⟨limit, hlimit, hload⟩ := exists_limit fs path
  obtain ⟨fuel, rfl⟩ := Nat.exists_eq_succ_of_ne_zero (Nat.ne_zero_of_lt hlimit)
  have hsheets : sheetsOf fs path = .ok [s] := by
    rw [hload, load, hopen]
    simp [Loading.start, isLoaded, himports, Except.map]
  exact inline_eq_ok_iff.mpr ⟨[s], hsheets, by simp⟩

/-- **A stylesheet with its imports in place.** No chain of imports of a tree without links is longer
than the tree has entries, so every walk ends. -/
theorem inline_in_order (hlinks : fs.HasNoLinks) (path : Path) :
    (∀ fuel, fs.entries.length < fuel →
      (load fs fuel .start (Path.clean (fs.absolute path))).map Loading.resolved = sheetsOf fs path) ∧
    ((∃ text, inline fs path = .ok text) ↔ ∀ q, Reaches fs (Path.clean (fs.absolute path)) q →
      Readable fs q ∧ ¬ Relation.TransGen (Imports fs) q q) ∧
    ∀ text, inline fs path = .ok text → ∃ sheets,
      Inlined fs (Path.clean (fs.absolute path)) sheets ∧
      text = ['\n'].intercalate (sheets.map Sheet.content) := by
  have hroot : OnChain fs [] (Path.clean (fs.absolute path)) := OnChain.root (isClean_root fs path)
  obtain ⟨limit, hlimit, hload⟩ := exists_limit fs path
  refine ⟨fun fuel hfuel => ?_, ⟨?_, fun h => ?_⟩, fun text h => ?_⟩
  · rw [hload]
    exact congrArg (Except.map Loading.resolved)
      (load_eq_of_lt hlinks Loading.isAt_start hroot (by simpa using hfuel) (by simpa using hlimit))
  · rintro ⟨text, h⟩ q hq
    obtain ⟨sheets, hsheets, -⟩ := inline_eq_ok_iff.mp h
    obtain ⟨l, hl, rfl⟩ := Outcome.map_eq_ok_iff.mp (hload ▸ hsheets)
    have hinlined := inlined_of_load hl
    exact ⟨hinlined.readable hq, hinlined.acyclic hq⟩
  · cases hsheets : sheetsOf fs path with
    | ok sheets => exact ⟨_, inline_eq_ok_iff.mpr ⟨sheets, hsheets, rfl⟩⟩
    | error e =>
      rw [hload, Outcome.map_eq_error_iff] at hsheets
      obtain ⟨q, hq, hcause⟩ := cause_of_load_error hlinks hroot (by simpa using hlimit) hsheets
      obtain ⟨hreadable, hacyclic⟩ := h q hq
      exact absurd hcause (not_or.mpr ⟨not_not.mpr hreadable, hacyclic⟩)
  · obtain ⟨sheets, hsheets, rfl⟩ := inline_eq_ok_iff.mp h
    obtain ⟨l, hl, rfl⟩ := Outcome.map_eq_ok_iff.mp (hload ▸ hsheets)
    exact ⟨_, inlined_of_load hl, rfl⟩

/-- Two sheets of one folder import a third one, and a fourth imports both and one of them again. -/
def diamond : FileTree where
  entries :=
    [(["t".toList], .folder),
      (["r".toList], .file (Text.encode "@import 't/a';@import \"/t/./b\" ;@import 't/a'r".toList)),
      (["t".toList, "a".toList], .file (Text.encode "@import 'c';\na".toList)),
      (["t".toList, "b".toList], .file (Text.encode "@import '../t/c'b".toList)),
      (["t".toList, "c".toList], .file (Text.encode "c".toList))]
  current := ["t".toList]

def diamondSheets : List Sheet :=
  [⟨"/t/c".toList, [], "c".toList⟩, ⟨"/t/a".toList, ["/t/c".toList], "a".toList⟩,
    ⟨"/t/b".toList, ["/t/c".toList], "b".toList⟩,
    ⟨"/r".toList, ["/t/a".toList, "/t/b".toList, "/t/a".toList], "r".toList⟩]

theorem inline_in_order_diamond :
    diamond.HasNoLinks ∧ inline diamond "../r".toList = .ok "c\na\nb\nr".toList ∧
      (∀ q, Reaches diamond "/r".toList q →
        Readable diamond q ∧ ¬ Relation.TransGen (Imports diamond) q q) ∧
      ∃ sheets, Inlined diamond "/r".toList sheets ∧
        "c\na\nb\nr".toList = ['\n'].intercalate (sheets.map Sheet.content) := by
  have hlinks : diamond.HasNoLinks := by simp [FileTree.HasNoLinks, diamond]
  have hroot : Path.clean (diamond.absolute "../r".toList) = "/r".toList := by decide +kernel
  obtain ⟨hload, hiff, hsheets⟩ := inline_in_order hlinks "../r".toList
  rw [hroot] at hload hiff hsheets
  have hrun : (load diamond 6 .start "/r".toList).map Loading.resolved = .ok diamondSheets := by cbv
  have hinline : inline diamond "../r".toList = .ok "c\na\nb\nr".toList :=
    inline_eq_ok_iff.mpr ⟨diamondSheets, (hload 6 (by decide)).symm.trans hrun, by decide +kernel⟩
  exact ⟨hlinks, hinline, hiff.mp ⟨_, hinline⟩, hsheets _ hinline⟩

end AmdBundle.Stylesheet
