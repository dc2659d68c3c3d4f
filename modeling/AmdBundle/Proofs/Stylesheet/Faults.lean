import AmdBundle.Proofs.Stylesheet.Load
import Mathlib

/-!
# Faults of stylesheets

When the imports of a stylesheet cannot be put in place, the fault says why. The files that are being
loaded are a chain of imports from the root to the path at hand: a path joins it while its imports are
loaded, and a path that was loaded has left it.

* `openSheet_eq_error` : why one file has no sheet;
* `HasNoText` : why one file has no text; `StyleError.IsTrue` : what a fault says about the files;
* `isTrue_of_load_error` : a run along a chain keeps to the truth; `isTrue_of_inline_error` : so does
  every run from the root, links or not.
-/

set_option autoImplicit false

namespace AmdBundle

namespace Stylesheet

/-- The path is the root or is imported by a file that the root reaches. -/
def Named (fs : FileTree) (root q : Path) : Prop :=
  q = root ∨ ∃ p, Reaches fs root p ∧ Imports fs p q

/-- A way of imports from the root that comes back to one of its files, and to no other twice. -/
structure Cycle (fs : FileTree) (root : Path) (chain : List Path) : Prop where
  starts : chain.head? = some root
  linked : chain.IsChain (Imports fs)
  once : chain.dropLast.Nodup
  closed : ∃ q ∈ chain.dropLast, chain.getLast? = some q

/-- The file of that path may not be read, or its bytes are no text. -/
def HasNoText (fs : FileTree) (q : Path) : FileError → Prop
  | .permissionDenied => ∃ loc, fs.locate q = .ok loc ∧ fs.canRead loc = false
  | .notText => ∃ bytes, fs.readBytes q = .ok bytes ∧ Text.decode bytes = none
  | _ => False

end Stylesheet

open Stylesheet in
/-- What a fault says of the stylesheet at `root` is so. -/
def StyleError.IsTrue (fs : FileTree) (root : Path) : StyleError → Prop
  | .cyclic chain => Cycle fs root chain
  | .notFound q => Named fs root q ∧ fs.isFile q = false
  | .unreadable q cause => Named fs root q ∧ fs.isFile q = true ∧ HasNoText fs q cause

namespace Stylesheet
variable {fs : FileTree} {fuel : Nat} {l : Loading} {chain : List Path} {p root : Path}

/-! ## One file -/

theorem exists_file_of_isFile (h : fs.isFile p = true) :
    ∃ loc content, fs.locate p = .ok loc ∧ fs.find? loc = some (.file content) := by
  unfold FileTree.isFile at h
  split at h
  · next content hentry =>
    obtain ⟨loc, hloc, hfind⟩ := FileTree.entryAt?_eq_ok hentry
    exact ⟨loc, content, hloc, hfind⟩
  · cases h

theorem readText_eq_error {cause : FileError} (hfile : fs.isFile p = true)
    (h : fs.readText p = .error cause) : HasNoText fs p cause := by
  obtain ⟨loc, content, hloc, hfind⟩ := exists_file_of_isFile hfile
  by_cases hcan : fs.canRead loc = true
  · have hbytes := FileTree.readBytes_eq_ok_iff.mpr ⟨loc, hloc, hcan, hfind⟩
    rw [FileTree.readText, hbytes, Outcome.bind_ok, FileTree.asText] at h
    split at h
    · cases h
    · next hdecode =>
      obtain rfl := Except.error.inj h
      exact ⟨content, hbytes, hdecode⟩
  · have hdenied : fs.readBytes p = .error .permissionDenied := by
      rw [FileTree.readBytes, hloc, Outcome.bind_ok, if_neg hcan]
    rw [FileTree.readText, hdenied] at h
    obtain rfl := Except.error.inj h
    exact ⟨loc, hloc, Bool.eq_false_iff.mpr hcan⟩

theorem HasNoText.not_readable {cause : FileError} (h : HasNoText fs p cause) : ¬ Readable fs p := by
  rintro ⟨-, text, htext⟩
  obtain ⟨bytes, hbytes, hdecode⟩ := Outcome.bind_eq_ok_iff.mp htext
  cases cause with
  | permissionDenied =>
    obtain ⟨loc, hloc, hcan⟩ := h
    obtain ⟨loc', hloc', hcan', -⟩ := FileTree.readBytes_eq_ok_iff.mp hbytes
    obtain rfl := Except.ok.inj (hloc.symm.trans hloc')
    exact Bool.eq_false_iff.mp hcan hcan'
  | notText =>
    obtain ⟨bytes', hbytes', hnone⟩ := h
    obtain rfl := Except.ok.inj (hbytes.symm.trans hbytes')
    rw [FileTree.asText_eq_ok_iff, hnone] at hdecode
    cases hdecode
  | _ => exact h

theorem openSheet_eq_error {e : StyleError} (h : openSheet fs p = .error e) (hnamed : Named fs root p) :
    e.IsTrue fs root := by
  unfold openSheet at h
  split at h
  · next hfile =>
    split at h
    · next cause hread =>
      obtain rfl := Except.error.inj h
      exact ⟨hnamed, hfile, readText_eq_error hfile hread⟩
    · cases h
  · next hfile =>
    obtain rfl := Except.error.inj h
    exact ⟨hnamed, Bool.eq_false_iff.mpr hfile⟩

theorem Named.reaches {q : Path} (h : Named fs root q) : Reaches fs root q := by
  rcases h with rfl | ⟨p, hp, himports⟩
  · exact .refl
  · exact hp.tail himports

/-! ## The chain of a run -/

theorem transGen_of_isChain {q : Path} (h : (p :: (chain ++ [q])).IsChain (Imports fs)) :
    Relation.TransGen (Imports fs) p q := by
  induction chain generalizing p with
  | nil => exact .single (List.isChain_pair.mp h)
  | cons r chain ih =>
    obtain ⟨hfirst, hmore⟩ := List.isChain_cons_cons.mp h
    exact .head hfirst (ih hmore)

theorem reaches_of_isChain {q : Path} (h : (p :: (chain ++ [q])).IsChain (Imports fs)) :
    Reaches fs p q :=
  (transGen_of_isChain h).to_reflTransGen

/-- The path behind a chain from the root is imported by the last file of the chain. -/
theorem OnChain.named (h : OnChain fs chain p) (hroot : (chain ++ [p]).head? = some root) :
    Named fs root p := by
  rcases List.eq_nil_or_concat chain with rfl | ⟨front, last, rfl⟩
  · exact .inl (Option.some.inj hroot)
  · rw [List.concat_eq_append] at h hroot
    have hlinked := h.linked
    rw [List.append_assoc] at hlinked
    have himports : Imports fs last p := List.isChain_pair.mp (List.isChain_split.mp hlinked).2
    cases front with
    | nil =>
      obtain rfl : last = root := by simpa using hroot
      exact .inr ⟨last, .refl, himports⟩
    | cons first front =>
      obtain rfl : first = root := by simpa using hroot
      exact .inr ⟨last, reaches_of_isChain (List.isChain_split.mp hlinked).1, himports⟩

theorem OnChain.isCycle (h : OnChain fs chain p) (hroot : (chain ++ [p]).head? = some root)
    (hp : p ∈ chain) : Cycle fs root (chain ++ [p]) where
  starts := hroot
  linked := h.linked
  once := by
    rw [List.dropLast_concat]
    exact h.once
  closed := ⟨p, by rwa [List.dropLast_concat], by simp⟩

/-- **A run keeps to the truth.** -/
theorem isTrue_of_load_error {bound : Nat}
    (hbound : ∀ {chain p}, OnChain fs chain p → chain.length ≤ bound) (hl : l.IsAt fs chain)
    (h : OnChain fs chain p) (hroot : (chain ++ [p]).head? = some root)
    (hfuel : bound < chain.length + fuel) {e : StyleError} (herror : load fs fuel l p = .error e) :
    e.IsTrue fs root := by
  have hlength := hbound h
  induction fuel generalizing l chain p with
  | zero => omega
  | succ fuel ih =>
    have hchain : l.resolving = chain := hl.2
    rcases load_eq_error herror with ⟨hp, rfl⟩ | hopen | ⟨hp, s, hs, rfl, hbelow⟩
    · rw [hchain] at hp ⊢
      exact h.isCycle hroot hp
    · exact openSheet_eq_error hopen (h.named hroot)
    · rw [hchain] at hp
      obtain ⟨q, hq, l', hl', hload⟩ := Outcome.exists_of_foldlM_eq_error (hl.begun s.path)
        (fun _ _ _ hl => hl.load) hbelow
      have hnext := h.next hs hp hq
      refine ih hl' hnext ?_ (by simp; omega) hload (hbound hnext)
      rw [List.head?_append, hroot]
      rfl

/-! ## Runs from the root -/

theorem Cycle.transGen (h : Cycle fs root chain) :
    ∃ q, Reaches fs root q ∧ Relation.TransGen (Imports fs) q q := by
  obtain ⟨hstarts, hlinked, -, q, hq, hlast⟩ := h
  obtain ⟨front, rfl⟩ := List.getLast?_eq_some_iff.mp hlast
  rw [List.dropLast_concat] at hq
  obtain ⟨before, behind, rfl⟩ := List.append_of_mem hq
  rw [List.append_assoc, List.cons_append] at hlinked hstarts
  obtain ⟨hway, hround⟩ := List.isChain_split.mp hlinked
  refine ⟨q, ?_, transGen_of_isChain hround⟩
  cases before with
  | nil =>
    obtain rfl : q = root := by simpa using hstarts
    exact .refl
  | cons first before =>
    obtain rfl : first = root := by simpa using hstarts
    exact reaches_of_isChain hway

/-- A true fault names a file within reach that cannot be read or imports itself. -/
theorem cause_of_isTrue {e : StyleError} (h : e.IsTrue fs root) :
    ∃ q, Reaches fs root q ∧ (¬ Readable fs q ∨ Relation.TransGen (Imports fs) q q) := by
  cases e with
  | cyclic chain =>
    obtain ⟨q, hq, hround⟩ := Cycle.transGen h
    exact ⟨q, hq, .inr hround⟩
  | notFound q =>
    obtain ⟨hnamed, hfile⟩ := h
    refine ⟨q, hnamed.reaches, .inl fun hreadable => ?_⟩
    rw [hreadable.1] at hfile
    cases hfile
  | unreadable q cause =>
    obtain ⟨hnamed, -, hnone⟩ := h
    exact ⟨q, hnamed.reaches, .inl hnone.not_readable⟩

/-- **Why loading fails.** -/
theorem cause_of_load_error (hlinks : fs.HasNoLinks) (h : OnChain fs [] p)
    (hfuel : fs.entries.length < fuel) {e : StyleError} (herror : load fs fuel .start p = .error e) :
    ∃ q, Reaches fs p q ∧ (¬ Readable fs q ∨ Relation.TransGen (Imports fs) q q) :=
  cause_of_isTrue (isTrue_of_load_error (fun h => h.length_le hlinks) Loading.isAt_start h rfl
    (by simpa using hfuel) herror)

theorem sheetsOf_eq_error {path : Path} {e : StyleError} (h : sheetsOf fs path = .error e) :
    load fs (chainLimit fs) .start (Path.clean (fs.absolute path)) = .error e :=
  Outcome.map_eq_error_iff.mp h

theorem isClean_root (fs : FileTree) (path : Path) :
    Path.IsClean (Path.clean (fs.absolute path)) :=
  Path.isClean_clean (Path.isAbsolute_join (Path.isAbsolute_pathOf fs.current))

/-- **Faults are true.** In every tree, links or not, a run with enough steps does what a run with more
steps does; and when it fails, the fault is a cycle of imports that starts at the root, or names the
root or an imported path at which there is no file, or none that can be read as a text. -/
theorem isTrue_of_inline_error (fs : FileTree) (path : Path) :
    (∀ fuel, chainLimit fs ≤ fuel →
      (load fs fuel .start (Path.clean (fs.absolute path))).map Loading.resolved = sheetsOf fs path) ∧
    ∀ e, inline fs path = .error e → e.IsTrue fs (Path.clean (fs.absolute path)) := by
  have hroot : OnChain fs [] (Path.clean (fs.absolute path)) := OnChain.root (isClean_root fs path)
  obtain ⟨bound, hlimit⟩ := Nat.exists_eq_succ_of_ne_zero
    (Nat.ne_zero_of_lt (OnChain.lt_chainLimit hroot))
  have hbound : ∀ {chain p}, OnChain fs chain p → chain.length ≤ bound := fun h =>
    Nat.le_of_lt_succ (hlimit ▸ h.lt_chainLimit)
  refine ⟨fun fuel hfuel => ?_, fun e herror => ?_⟩
  · rw [hlimit] at hfuel
    have hlt : bound < fuel := hfuel
    exact congrArg (Except.map Loading.resolved)
      (load_eq_of_bound hbound Loading.isAt_start hroot (by simpa using hlt) (by simp [hlimit]))
  · rcases Outcome.bind_eq_error_iff.mp herror with hsheets | ⟨sheets, -, hjoin⟩
    · have hload := sheetsOf_eq_error hsheets
      exact isTrue_of_load_error hbound Loading.isAt_start hroot rfl (by simp [hlimit]) hload
    · cases hjoin

/-- A sheet that imports a link to itself, and so the link again. -/
def linkedSheet : FileTree where
  entries :=
    [(["a".toList], .file (Text.encode "@import 'l'".toList)), (["l".toList], .link "a".toList)]
  current := []

theorem isTrue_of_inline_error_linked :
    inline linkedSheet "a".toList = .error (.cyclic ["/a".toList, "/l".toList, "/l".toList]) ∧
      Cycle linkedSheet "/a".toList ["/a".toList, "/l".toList, "/l".toList] := by
  have hroot : Path.clean (linkedSheet.absolute "a".toList) = "/a".toList := by decide +kernel
  obtain ⟨more, hmore⟩ := Nat.exists_eq_add_of_le' (show 3 ≤ chainLimit linkedSheet by decide +kernel)
  have hload : load linkedSheet (more + 3) .start "/a".toList =
      .error (.cyclic ["/a".toList, "/l".toList, "/l".toList]) := by cbv
  have hinline : inline linkedSheet "a".toList =
      .error (.cyclic ["/a".toList, "/l".toList, "/l".toList]) := by
    rw [inline, sheetsOf, hroot, hmore, hload]
    rfl
  exact ⟨hinline, hroot ▸ (isTrue_of_inline_error linkedSheet "a".toList).2 _ hinline⟩

end Stylesheet

end AmdBundle
