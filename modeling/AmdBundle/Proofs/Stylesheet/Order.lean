import AmdBundle.Proofs.FileTree.Walk
import AmdBundle.Proofs.Stylesheet.Import
import AmdBundle.Resource.Stylesheet
import Mathlib.Logic.Relation

/-!
# The order of imported stylesheets

* `Imports`, `Reaches` : a file imports another one, directly or at any distance;
* `Visits` : the files met on a walk along all imports, each behind those that it imports, as often
  as they are met;
* `Inlined` : some sheets are those of all files that a file reaches, in that order without
  repetitions.
-/

set_option autoImplicit false

namespace AmdBundle.Stylesheet

/-- The path leads to a file that holds a text. -/
def Readable (fs : FileTree) (p : Path) : Prop :=
  fs.isFile p = true ∧ ∃ text, fs.readText p = .ok text

/-- The sheet says what stands in the file of its path. -/
def Sheet.IsIn (fs : FileTree) (s : Sheet) : Prop :=
  ∃ text targets, fs.readText s.path = .ok text ∧ Scanned text targets s.content ∧
    s.imports = targets.map (importPath s.path)

/-- The file of the first path imports the second one. -/
def Imports (fs : FileTree) (p q : Path) : Prop :=
  ∃ s : Sheet, s.IsIn fs ∧ s.path = p ∧ q ∈ s.imports

/-- The second path is the first one, or is imported at some distance. -/
def Reaches (fs : FileTree) : Path → Path → Prop :=
  Relation.ReflTransGen (Imports fs)

/-- A walk from some paths, one after the other. Every file is met behind all files that are met from
its imports, each time anew. -/
inductive Visits (fs : FileTree) : List Path → List Path → Prop where
  | nil : Visits fs [] []
  | cons {s : Sheet} {paths below behind : List Path} (isIn : s.IsIn fs)
      (imports : Visits fs s.imports below) (more : Visits fs paths behind) :
      Visits fs (s.path :: paths) (below ++ s.path :: behind)

variable {fs : FileTree}

/-! ## Sheets -/

theorem openSheet_eq_ok_iff {p : Path} {s : Sheet} :
    openSheet fs p = .ok s ↔ s.IsIn fs ∧ s.path = p := by
  unfold openSheet
  constructor
  · intro h
    split at h
    · split at h
      · cases h
      · next text htext =>
        obtain rfl := Except.ok.inj h
        exact ⟨⟨text, _, htext, splitImports_eq_iff.mp rfl, rfl⟩, rfl⟩
    · cases h
  · rintro ⟨⟨text, targets, htext, hscanned, himports⟩, rfl⟩
    rw [if_pos (FileTree.isFile_of_readText htext), htext]
    simp only [splitImports_eq_iff.mpr hscanned, ← himports]

theorem exists_openSheet_iff {p : Path} : (∃ s, openSheet fs p = .ok s) ↔ Readable fs p := by
  constructor
  · rintro ⟨s, h⟩
    obtain ⟨⟨text, -, htext, -⟩, rfl⟩ := openSheet_eq_ok_iff.mp h
    exact ⟨FileTree.isFile_of_readText htext, text, htext⟩
  · rintro ⟨-, text, htext⟩
    let s : Sheet := ⟨p, (splitImports text).1.map (importPath p), (splitImports text).2⟩
    have hs : s.IsIn fs := ⟨text, _, htext, splitImports_eq_iff.mp rfl, rfl⟩
    exact ⟨s, openSheet_eq_ok_iff.mpr ⟨hs, rfl⟩⟩

theorem Sheet.IsIn.readable {s : Sheet} (h : s.IsIn fs) : Readable fs s.path :=
  exists_openSheet_iff.mp ⟨s, openSheet_eq_ok_iff.mpr ⟨h, rfl⟩⟩

/-- A file has one sheet. -/
theorem Sheet.IsIn.eq {s s' : Sheet} (h : s.IsIn fs) (h' : s'.IsIn fs) (hpath : s.path = s'.path) :
    s = s' := by
  have hs := openSheet_eq_ok_iff.mpr ⟨h, hpath⟩
  have hs' := openSheet_eq_ok_iff.mpr ⟨h', rfl⟩
  exact Except.ok.inj (hs.symm.trans hs')

theorem Sheet.IsIn.imports_iff {s : Sheet} (h : s.IsIn fs) {q : Path} :
    Imports fs s.path q ↔ q ∈ s.imports := by
  constructor
  · rintro ⟨s', hs', hpath, hq⟩
    rwa [h.eq hs' hpath.symm]
  · exact fun hq => ⟨s, h, rfl, hq⟩

theorem Sheet.IsIn.reaches_iff {s : Sheet} (h : s.IsIn fs) {q : Path} :
    Reaches fs s.path q ↔ q = s.path ∨ ∃ p ∈ s.imports, Reaches fs p q := by
  rw [Reaches, Relation.ReflTransGen.cases_head_iff, eq_comm]
  simp only [h.imports_iff]

/-! ## Walks -/

theorem Visits.append {paths paths' met met' : List Path} (h : Visits fs paths met)
    (h' : Visits fs paths' met') : Visits fs (paths ++ paths') (met ++ met') := by
  induction h with
  | nil => exact h'
  | cons isIn imports _ _ ih =>
    rw [List.append_assoc]
    exact .cons isIn imports ih

theorem Visits.mem_iff {paths met : List Path} (h : Visits fs paths met) {q : Path} :
    q ∈ met ↔ ∃ p ∈ paths, Reaches fs p q := by
  induction h with
  | nil => simp
  | @cons s paths below behind isIn _ _ ihbelow ihbehind =>
    rw [List.mem_append, List.mem_cons, ihbelow, ihbehind, List.exists_mem_cons_iff, isIn.reaches_iff]
    exact or_left_comm.trans or_assoc.symm

theorem Visits.readable {paths met : List Path} (h : Visits fs paths met) :
    ∀ q ∈ met, Readable fs q := by
  induction h with
  | nil => simp
  | cons isIn _ _ ihbelow ihbehind =>
    intro q hq
    rcases List.mem_append.mp hq with hq | hq
    · exact ihbelow q hq
    · rcases List.mem_cons.mp hq with rfl | hq
      · exact isIn.readable
      · exact ihbehind q hq

/-! ## Sheets in order -/

/-- The sheets are those of all files that `root` reaches, each once and behind those of its imports,
in the order in which a walk from `root` first meets the files. -/
structure Inlined (fs : FileTree) (root : Path) (sheets : List Sheet) : Prop where
  isIn : ∀ s ∈ sheets, s.IsIn fs
  all : ∀ q, q ∈ sheets.map Sheet.path ↔ Reaches fs root q
  once : (sheets.map Sheet.path).Nodup
  behind : ∀ a s b, sheets = a ++ s :: b → ∀ q ∈ s.imports, q ∈ a.map Sheet.path
  order : ∃ met, Visits fs [root] met ∧ sheets.map Sheet.path = met.eraseDups
  last : (sheets.map Sheet.path).getLast? = some root

namespace Inlined
variable {root : Path} {sheets : List Sheet}

theorem readable (h : Inlined fs root sheets) {q : Path} (hq : Reaches fs root q) : Readable fs q := by
  obtain ⟨s, hs, rfl⟩ := List.mem_map.mp ((h.all q).mpr hq)
  exact (h.isIn s hs).readable

theorem idxOf_lt (h : Inlined fs root sheets) {p q : Path} (hp : Reaches fs root p)
    (himports : Imports fs p q) :
    (sheets.map Sheet.path).idxOf q < (sheets.map Sheet.path).idxOf p := by
  obtain ⟨s, hs, rfl⟩ := List.mem_map.mp ((h.all p).mpr hp)
  obtain ⟨a, b, rfl⟩ := List.append_of_mem hs
  have hq := h.behind a s b rfl q ((h.isIn s hs).imports_iff.mp himports)
  have hnew : s.path ∉ a.map Sheet.path := by
    have honce := h.once
    rw [List.map_append, List.nodup_append] at honce
    exact fun hin => honce.2.2 _ hin _ List.mem_cons_self rfl
  rw [List.map_append, List.idxOf_append_of_mem hq, List.idxOf_append_of_notMem hnew]
  exact Nat.lt_add_right _ (List.idxOf_lt_length_of_mem hq)

/-- Imports come earlier in the order, so no file imports itself at any distance. -/
theorem acyclic (h : Inlined fs root sheets) {q : Path} (hq : Reaches fs root q) :
    ¬ Relation.TransGen (Imports fs) q q := by
  have hlt : ∀ p, Relation.TransGen (Imports fs) q p →
      (sheets.map Sheet.path).idxOf p < (sheets.map Sheet.path).idxOf q := by
    intro p hp
    induction hp with
    | single himports => exact h.idxOf_lt hq himports
    | tail hway himports ih => exact (h.idxOf_lt (hq.trans hway.to_reflTransGen) himports).trans ih
  exact fun hcycle => Nat.lt_irrefl _ (hlt q hcycle)

end Inlined

end AmdBundle.Stylesheet
