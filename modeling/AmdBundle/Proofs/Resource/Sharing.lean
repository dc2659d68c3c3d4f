import AmdBundle.Proofs.Path.Relative
import AmdBundle.Proofs.ResourceKey

/-!
# Tokens that share a key

The path of a key is the clean form of the way from the top through the folder of the module, so two
tokens share a key exactly if they say the same directive and lead to the same place.

* `wholePath` : that way as it is spelled; `Says` : the directive and the path of a token;
* `resolve_eq_clean` : a path seen from a module is the clean form of its whole path;
* `resolve_of_top` : seen from a module at the top, a path is only cleaned;
* `normalises` : the two ways to shorten a path agree, and what follows for keys.
-/

set_option autoImplicit false

namespace AmdBundle.ResourceKey

/-- The way from the top to what a module means by a path, as it is spelled. -/
def wholePath (moduleName path : Text) : Path :=
  (folderOf moduleName ++ '/' :: path).dropWhile (· == '/')

/-- The token names the directive before its first mark, and the path behind it. -/
def Says (token : Text) (d : Directive) (path : Text) : Prop :=
  ∃ front back, token = front ++ '!' :: back ∧ '!' ∉ front ∧
    Text.trim Text.isBlank front = d.name.toList ∧ Text.trim Text.isBlank back = path

/-! ## Paths seen from a module -/

theorem resolve_eq_along (moduleName path : Text) : resolve moduleName path =
    Path.along ((List.splitOn '/' (folderOf moduleName) ++ List.splitOn '/' path).foldl
      (Path.pushPart false) []).reverse := rfl

theorem isAbsolute_wholePath (moduleName path : Text) :
    Path.isAbsolute (wholePath moduleName path) = false :=
  Path.isAbsolute_dropSlashes _

theorem stack_wholePath (moduleName path : Text) : Path.stack (wholePath moduleName path) =
    (List.splitOn '/' (folderOf moduleName) ++ List.splitOn '/' path).foldl
      (Path.pushPart false) [] := by
  have hrelative := isAbsolute_wholePath moduleName path
  rw [Path.stack, hrelative, Path.names_of_relative hrelative, wholePath, Path.foldl_dropSlashes,
    List.splitOn_append_cons_self]

/-- **A path seen from a module is the clean form of its whole path.** -/
theorem resolve_eq_clean (moduleName path : Text) :
    resolve moduleName path = Path.clean (wholePath moduleName path) := by
  rw [resolve_eq_along, Path.clean_of_relative (isAbsolute_wholePath moduleName path),
    stack_wholePath]

theorem folderOf_of_top {top : Text} (h : '/' ∉ top) : folderOf top = [] := by
  unfold folderOf
  split
  · next front back hsplit =>
    rw [Text.splitLast_eq_some hsplit] at h
    simp at h
  · rfl

/-- Seen from a module at the top, a path is only cleaned. -/
theorem resolve_of_top {top : Text} (h : '/' ∉ top) {path : Text}
    (hpath : Path.isAbsolute path = false) : resolve top path = Path.clean path := by
  have hwhole : wholePath top path = path := by
    unfold wholePath
    rw [folderOf_of_top h, List.nil_append, List.dropWhile_cons_of_pos (by simp)]
    cases path with
    | nil => rfl
    | cons c path =>
      have hc : c ≠ '/' := by simpa [Path.isAbsolute] using hpath
      exact List.dropWhile_cons_of_neg (by simp [hc])
  rw [resolve_eq_clean, hwhole]

/-! ## Keys -/

theorem key_inj {d d' : Directive} {path path' : Text} :
    key d path = key d' path' ↔ d = d' ∧ path = path' := by
  constructor
  · intro h
    have hsplit := splitOnce_key d path
    rw [h, splitOnce_key, Option.some.injEq, Prod.mk.injEq] at hsplit
    obtain ⟨hname, hpath⟩ := hsplit
    have hdirective := Directive.ofName?_name d
    rw [← hname, Directive.ofName?_name] at hdirective
    exact ⟨(Option.some.inj hdirective).symm, hpath.symm⟩
  · rintro ⟨rfl, rfl⟩
    rfl

theorem ofToken?_eq_some_iff_says {moduleName token k : Text} :
    ofToken? moduleName token = some k ↔
      ∃ d path, Says token d path ∧ k = key d (Path.clean (wholePath moduleName path)) := by
  rw [ofToken?_eq_some_iff]
  constructor
  · rintro ⟨front, back, d, htoken, hmark, hname, rfl⟩
    rw [resolve_eq_clean]
    exact ⟨d, _, ⟨front, back, htoken, hmark, hname, rfl⟩, rfl⟩
  · rintro ⟨d, path, ⟨front, back, htoken, hmark, hname, rfl⟩, rfl⟩
    refine ⟨front, back, d, htoken, hmark, hname, ?_⟩
    rw [resolve_eq_clean]

/-- Two tokens share a key exactly if they say one directive and lead to one place. -/
theorem exists_key_iff {moduleName moduleName' token token' : Text} :
    (∃ k, ofToken? moduleName token = some k ∧ ofToken? moduleName' token' = some k) ↔
      ∃ d path path', Says token d path ∧ Says token' d path' ∧
        Path.clean (wholePath moduleName path) = Path.clean (wholePath moduleName' path') := by
  constructor
  · rintro ⟨k, hk, hk'⟩
    obtain ⟨d, path, hsays, rfl⟩ := ofToken?_eq_some_iff_says.mp hk
    obtain ⟨d', path', hsays', heq⟩ := ofToken?_eq_some_iff_says.mp hk'
    obtain ⟨rfl, hpaths⟩ := key_inj.mp heq
    exact ⟨d, path, path', hsays, hsays', hpaths⟩
  · rintro ⟨d, path, path', hsays, hsays', hpaths⟩
    refine ⟨_, ofToken?_eq_some_iff_says.mpr ⟨d, path, hsays, rfl⟩, ?_⟩
    rw [hpaths]
    exact ofToken?_eq_some_iff_says.mpr ⟨d, path', hsays', rfl⟩

/-! ## One clean form -/

/-- Paths of keys are clean paths, and keys are told apart by them. -/
structure Normalises : Prop where
  cleaned : ∀ moduleName path,
    resolve moduleName path = Path.clean (wholePath moduleName path)
  shortest : ∀ moduleName path, Path.IsShortest (resolve moduleName path)
  /-- Seen again from a module at the top, the path of a key stays as it is. -/
  settled : ∀ moduleName path top, '/' ∉ top →
    resolve top (resolve moduleName path) = resolve moduleName path
  shared : ∀ moduleName moduleName' token token',
    (∃ k, ofToken? moduleName token = some k ∧ ofToken? moduleName' token' = some k) ↔
      ∃ d path path', Says token d path ∧ Says token' d path' ∧
        Path.clean (wholePath moduleName path) = Path.clean (wholePath moduleName' path')

/-- **Paths of keys are clean paths, and keys are told apart by them.** -/
theorem normalises : Normalises where
  cleaned := resolve_eq_clean
  shortest moduleName path := by
    rw [resolve_eq_clean]
    exact Path.isShortest_clean (isAbsolute_wholePath moduleName path)
  settled moduleName path top htop := by
    have hwhole := isAbsolute_wholePath moduleName path
    rw [resolve_eq_clean moduleName path, resolve_of_top htop (Path.isAbsolute_clean hwhole)]
    exact Path.clean_clean hwhole
  shared _ _ _ _ := exists_key_iff

example : ofToken? "lib/m".toList "text!./a//b/../c.txt".toList =
    ofToken? "/lib/x/n".toList " text ! .././a/c.txt".toList := by decide

end AmdBundle.ResourceKey
