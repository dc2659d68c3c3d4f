import AmdBundle.Proofs.Lists
import AmdBundle.ResourceKey
import Mathlib.Data.List.Basic

/-!
# What a resource key is made of

* `ofToken?_eq_some_iff` : a token has a key exactly if a directive stands before its first
  exclamation mark;
* `splitOnce_key` : the directive of a key stands before its first exclamation mark, the path behind;
* `forall_mem_of_ofToken?` : the characters of a key come from the module name, the token, the
  spellings of directives and the marks of paths.
-/

set_option autoImplicit false

namespace AmdBundle

/-! ## Separators and blanks -/

theorem Text.splitOnce_eq_some_iff {c : Char} {text front back : Text} :
    Text.splitOnce c text = some (front, back) ↔ text = front ++ c :: back ∧ c ∉ front := by
  induction text generalizing front with
  | nil => simp [Text.splitOnce]
  | cons d text ih =>
    by_cases hd : d = c
    · subst hd
      rw [Text.splitOnce, if_pos rfl, Option.some.injEq, Prod.mk.injEq]
      constructor
      · rintro ⟨rfl, rfl⟩
        simp
      · rintro ⟨htext, hfront⟩
        cases front with
        | nil => exact ⟨rfl, (List.cons.inj htext).2⟩
        | cons e front => exact absurd (List.cons.inj htext).1 (fun h => hfront (by simp [h]))
    · rw [Text.splitOnce, if_neg hd, Option.map_eq_some_iff]
      constructor
      · rintro ⟨⟨front', back'⟩, hsplit, heq⟩
        obtain ⟨rfl, rfl⟩ := Prod.mk.inj heq
        obtain ⟨rfl, hfront⟩ := ih.mp hsplit
        exact ⟨rfl, by simpa [Ne.symm hd] using hfront⟩
      · rintro ⟨htext, hfront⟩
        cases front with
        | nil => exact absurd (List.cons.inj htext).1 hd
        | cons e front =>
          obtain ⟨rfl, rfl⟩ := List.cons.inj htext
          exact ⟨(front, back), ih.mpr ⟨rfl, fun h => hfront (List.mem_cons_of_mem _ h)⟩, rfl⟩

theorem Text.splitOnce_eq_none_iff {c : Char} {text : Text} :
    Text.splitOnce c text = none ↔ c ∉ text := by
  induction text with
  | nil => simp [Text.splitOnce]
  | cons d text ih =>
    by_cases hd : d = c
    · simp [Text.splitOnce, hd]
    · rw [Text.splitOnce, if_neg hd, Option.map_eq_none_iff, ih]
      simp [Ne.symm hd]

theorem Text.splitLast_eq_some {c : Char} {text front back : Text}
    (h : Text.splitLast c text = some (front, back)) : text = front ++ c :: back := by
  induction text generalizing front with
  | nil => cases h
  | cons d text ih =>
    rw [Text.splitLast] at h
    split at h
    · next front' back' hsplit =>
      obtain ⟨rfl, rfl⟩ := Prod.mk.inj (Option.some.inj h)
      rw [ih hsplit]
      rfl
    · split at h
      · next hd =>
        obtain ⟨rfl, rfl⟩ := Prod.mk.inj (Option.some.inj h)
        rw [hd]
        rfl
      · cases h

theorem Text.mem_of_mem_trim {p : Char → Bool} {c : Char} {text : Text} (hc : c ∈ Text.trim p text) :
    c ∈ text := by
  have hstart : c ∈ Text.trimStart p text :=
    List.mem_reverse.mp ((List.dropWhile_suffix p).mem (List.mem_reverse.mp hc))
  exact (List.dropWhile_suffix p).mem hstart

/-! ## Directives -/

namespace Directive

theorem ofName?_name (d : Directive) : ofName? d.name.toList = some d := by
  cases d <;> decide

theorem ofName?_eq_some_iff {spelling : Text} {d : Directive} :
    ofName? spelling = some d ↔ spelling = d.name.toList := by
  constructor
  · intro h
    have := List.find?_some h
    exact (of_decide_eq_true this).symm
  · rintro rfl
    exact ofName?_name d

theorem mark_not_mem_name (d : Directive) : '!' ∉ d.name.toList := by
  cases d <;> decide

end Directive

/-! ## Parts that are kept -/

namespace Path
variable {absolute : Bool} {P : Text → Prop}

theorem forall_mem_pushPart {stack : List Text} {part : Text} (hup : P up)
    (hstack : ∀ q ∈ stack, P q) (hpart : part ≠ [] → P part) :
    ∀ q ∈ pushPart absolute stack part, P q := by
  unfold pushPart
  split
  · exact hstack
  · next hidle =>
    split
    · split
      · split
        · exact hstack
        · exact List.forall_mem_singleton.mpr hup
      · split
        · exact List.forall_mem_cons.mpr ⟨hup, hstack⟩
        · exact (List.forall_mem_cons.mp hstack).2
    · refine List.forall_mem_cons.mpr ⟨hpart ?_, hstack⟩
      rintro rfl
      exact hidle rfl

/-- What holds of the step up and of all parts that say something holds of the parts that are kept. -/
theorem forall_mem_cleanParts {parts : List Text} (hup : P up)
    (hparts : ∀ part ∈ parts, part ≠ [] → P part) : ∀ part ∈ cleanParts absolute parts, P part := by
  have hfold : ∀ stack : List Text, (∀ q ∈ stack, P q) →
      ∀ part ∈ parts.foldl (pushPart absolute) stack, P part := by
    induction parts with
    | nil => exact fun _ hstack => hstack
    | cons part parts ih =>
      obtain ⟨hpart, hparts⟩ := List.forall_mem_cons.mp hparts
      exact fun stack hstack => ih hparts _ (forall_mem_pushPart hup hstack hpart)
  exact fun part hpart => hfold [] (by simp) part (List.mem_reverse.mp hpart)

end Path

/-! ## Keys -/

namespace ResourceKey

theorem splitOnce_key (d : Directive) (path : Text) :
    Text.splitOnce '!' (key d path) = some (d.name.toList, path) :=
  Text.splitOnce_eq_some_iff.mpr ⟨rfl, d.mark_not_mem_name⟩

theorem ofToken?_eq_some_iff {moduleName token k : Text} :
    ofToken? moduleName token = some k ↔
      ∃ front path, ∃ d : Directive, token = front ++ '!' :: path ∧ '!' ∉ front ∧
        Text.trim Text.isBlank front = d.name.toList ∧
        k = key d (resolve moduleName (Text.trim Text.isBlank path)) := by
  unfold ofToken?
  cases hsplit : Text.splitOnce '!' token with
  | none =>
    have hmark := Text.splitOnce_eq_none_iff.mp hsplit
    constructor
    · intro h
      cases h
    · rintro ⟨front, path, d, rfl, -⟩
      simp at hmark
  | some parts =>
    obtain ⟨front, path⟩ := parts
    constructor
    · intro h
      obtain ⟨d, hd, rfl⟩ := Option.map_eq_some_iff.mp h
      obtain ⟨htoken, hfront⟩ := Text.splitOnce_eq_some_iff.mp hsplit
      exact ⟨front, path, d, htoken, hfront, Directive.ofName?_eq_some_iff.mp hd, rfl⟩
    · rintro ⟨front', path', d, htoken, hfront, hd, rfl⟩
      rw [Text.splitOnce_eq_some_iff.mpr ⟨htoken, hfront⟩] at hsplit
      obtain ⟨rfl, rfl⟩ := Prod.mk.inj (Option.some.inj hsplit)
      exact Option.map_eq_some_iff.mpr ⟨d, Directive.ofName?_eq_some_iff.mpr hd, rfl⟩

theorem ofToken?_eq_none_iff {moduleName token : Text} :
    ofToken? moduleName token = none ↔
      ∀ front path, token = front ++ '!' :: path → '!' ∉ front →
        ∀ d : Directive, Text.trim Text.isBlank front ≠ d.name.toList := by
  rw [Option.eq_none_iff_forall_ne_some]
  constructor
  · intro h front path htoken hfront d hd
    exact h _ (ofToken?_eq_some_iff.mpr ⟨front, path, d, htoken, hfront, hd, rfl⟩)
  · intro h k hk
    obtain ⟨front, path, d, htoken, hfront, hd, -⟩ := ofToken?_eq_some_iff.mp hk
    exact h front path htoken hfront d hd

/-! ## The characters of a key -/

theorem mem_of_mem_folderOf {c : Char} {name : Text} (hc : c ∈ folderOf name) : c ∈ name := by
  unfold folderOf at hc
  split at hc
  · next folder _ hsplit =>
    rw [Text.splitLast_eq_some hsplit]
    exact List.mem_append_left _ hc
  · cases hc

section
variable {P : Char → Prop}

theorem forall_mem_resolve {moduleName path : Text} (hslash : P '/') (hdot : P '.')
    (hname : ∀ c ∈ moduleName, P c) (hpath : ∀ c ∈ path, P c) :
    ∀ c ∈ resolve moduleName path, P c := by
  have hparts : ∀ part ∈ resolvedParts moduleName path, ∀ c ∈ part, P c := by
    refine Path.forall_mem_cleanParts (by simp [Path.up, hdot]) fun part hpart _ c hc => ?_
    rcases List.mem_append.mp hpart with hpart | hpart
    · exact hname c (mem_of_mem_folderOf (Lists.mem_of_mem_splitOn hpart hc))
    · exact hpath c (Lists.mem_of_mem_splitOn hpart hc)
  unfold resolve
  split
  · simpa [Path.here] using hdot
  · exact Lists.forall_mem_intercalate (by simpa using hslash) hparts

/-- What holds of the characters of a module name and of a token, and of those that keys are made
with, holds of the characters of the key. -/
theorem forall_mem_of_ofToken? {moduleName token k : Text} (hslash : P '/') (hdot : P '.')
    (hmark : P '!') (hdirective : ∀ d : Directive, ∀ c ∈ d.name.toList, P c)
    (hname : ∀ c ∈ moduleName, P c) (htoken : ∀ c ∈ token, P c)
    (hk : ofToken? moduleName token = some k) : ∀ c ∈ k, P c := by
  obtain ⟨front, path, d, rfl, -, -, rfl⟩ := ofToken?_eq_some_iff.mp hk
  have hpath : ∀ c ∈ Text.trim Text.isBlank path, P c := fun c hc =>
    htoken c (by simp [Text.mem_of_mem_trim hc])
  intro c hc
  rcases List.mem_append.mp hc with hc | hc
  · exact hdirective d c hc
  · rcases List.mem_cons.mp hc with rfl | hc
    · exact hmark
    · exact forall_mem_resolve hslash hdot hname hpath c hc

end

end ResourceKey

end AmdBundle
