import AmdBundle.FileTree.Basic
import AmdBundle.Path.Clean
import AmdBundle.Proofs.Lists
import Mathlib.Data.List.Basic

/-!
# Absolute clean paths

* `IsName` : a part that names something in its folder;
* `IsClean` : an absolute path along such names;
* `isClean_clean` : the clean form of an absolute path is one;
* `isAbsolute_join`, `isAbsolute_parent` : what is seen from an absolute path is absolute.
-/

set_option autoImplicit false

namespace AmdBundle.Path

/-- The part names something in its folder. -/
structure IsName (part : Text) : Prop where
  noSlash : '/' ∉ part
  notIdle : isIdle part = false
  notUp : part ≠ up

/-- The path goes down from the root, name by name. -/
def IsClean (p : Path) : Prop :=
  ∃ parts, p = FileTree.pathOf parts ∧ ∀ part ∈ parts, IsName part

/-! ## The clean form -/

theorem isName_pushPart {stack : List Text} {part : Text} (hstack : ∀ q ∈ stack, IsName q)
    (hpart : '/' ∉ part) : ∀ q ∈ pushPart true stack part, IsName q := by
  unfold pushPart
  split
  · exact hstack
  · next hidle =>
    split
    · split
      · simp
      · next top rest =>
        obtain ⟨htop, hrest⟩ := List.forall_mem_cons.mp hstack
        rw [if_neg htop.notUp]
        exact hrest
    · next hup =>
      exact List.forall_mem_cons.mpr ⟨⟨hpart, Bool.eq_false_iff.mpr hidle, hup⟩, hstack⟩

theorem isName_foldl_pushPart {parts stack : List Text} (hstack : ∀ q ∈ stack, IsName q)
    (hparts : ∀ part ∈ parts, '/' ∉ part) : ∀ q ∈ parts.foldl (pushPart true) stack, IsName q := by
  induction parts generalizing stack with
  | nil => exact hstack
  | cons part parts ih =>
    obtain ⟨hpart, hparts⟩ := List.forall_mem_cons.mp hparts
    exact ih (isName_pushPart hstack hpart) hparts

theorem slash_not_mem_names {p : Path} : ∀ part ∈ names p, '/' ∉ part := by
  unfold names
  split
  · exact fun _ => Lists.not_mem_of_mem_splitOn
  · exact fun _ => Lists.not_mem_of_mem_splitOn

theorem isClean_clean {p : Path} (h : isAbsolute p = true) : IsClean (clean p) := by
  refine ⟨cleanParts true (names p), ?_, ?_⟩
  · rw [clean, if_pos h]
    rfl
  · intro part hpart
    exact isName_foldl_pushPart (by simp) slash_not_mem_names part (List.mem_reverse.mp hpart)

theorem names_pathOf {parts : List Text} (h : ∀ part ∈ parts, IsName part) :
    names (FileTree.pathOf parts) = if parts = [] then [[]] else parts := by
  show List.splitOn '/' (['/'].intercalate parts) = _
  split
  · next hnil =>
    subst hnil
    rfl
  · next hne => exact List.splitOn_intercalate '/' (fun part hpart => (h part hpart).noSlash) hne

/-! ## What is seen from an absolute path -/

theorem isAbsolute_pathOf (parts : List Text) : isAbsolute (FileTree.pathOf parts) = true := rfl

theorem isAbsolute_join {p q : Path} (h : isAbsolute p = true) : isAbsolute (join p q) = true := by
  unfold join
  split
  · next hq => exact hq
  · cases p with
    | nil => cases h
    | cons c p => split <;> exact h

theorem dropIdleEnd_of_isName {parts : List Text} (h : ∀ part ∈ parts, IsName part) :
    dropIdleEnd parts = parts := by
  unfold dropIdleEnd
  cases hlast : parts.reverse with
  | nil => simpa using hlast.symm
  | cons last before =>
    have hname : isIdle last = false := (h last (List.mem_reverse.mp (by simp [hlast]))).notIdle
    rw [List.dropWhile_cons_of_neg (by simp [hname]), ← hlast, List.reverse_reverse]

/-- Everything but the root stands in a folder with an absolute path. -/
theorem isAbsolute_parent {parts : List Text} (h : ∀ part ∈ parts, IsName part)
    (hne : parts ≠ []) : isAbsolute (parent (FileTree.pathOf parts)) = true := by
  have hpieces : bodyPieces (FileTree.pathOf parts) = parts := by
    have hnames := names_pathOf h
    rw [if_neg hne] at hnames
    show dropIdleEnd (names (FileTree.pathOf parts)) = parts
    rw [hnames, dropIdleEnd_of_isName h]
  have hstart : (splitHead (FileTree.pathOf parts)).1 = ['/'] := rfl
  unfold parent parent?
  simp only [hpieces, hstart]
  cases parts with
  | nil => exact absurd rfl hne
  | cons part parts => rfl

end AmdBundle.Path
