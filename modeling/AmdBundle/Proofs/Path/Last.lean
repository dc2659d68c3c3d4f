import AmdBundle.Proofs.Path.Stack
import Mathlib.Data.List.DropRight

/-!
# The last part of a path

The last part that says something is the file name, and the parent is spelled by the parts before it.

* `foldl_dropIdleEnd`, `foldl_bodyPieces` : idle parts at the end or the beginning keep the stack of
  names as it is;
* `isName_of_fileName?`, `bodyPieces_of_fileName?` : a file name is a name, and stands at the end;
* `names_of_parent?` : the names of the path before an absolute one; `isAbsolute_of_parent?`;
* `fileName?_append_name`, `parent_append_name` : a name behind a path.
-/

set_option autoImplicit false

namespace AmdBundle.Path

variable {absolute : Bool} {kept : List Text} {p q : Path} {name : Text}

/-! ## Idle parts at the ends -/

theorem dropIdleEnd_isPrefix (parts : List Text) : dropIdleEnd parts <+: parts :=
  List.rdropWhile_prefix isIdle parts

theorem isIdle_getLast_dropIdleEnd {parts : List Text} (h : dropIdleEnd parts ≠ []) :
    isIdle ((dropIdleEnd parts).getLast h) = false :=
  Bool.eq_false_iff.mpr (List.rdropWhile_last_not isIdle parts h)

theorem exists_dropIdleEnd (parts : List Text) :
    ∃ idles, parts = dropIdleEnd parts ++ idles ∧ ∀ part ∈ idles, isIdle part = true := by
  refine ⟨(parts.reverse.takeWhile isIdle).reverse, ?_, ?_⟩
  · rw [dropIdleEnd, ← List.reverse_append, List.takeWhile_append_dropWhile, List.reverse_reverse]
  · intro part hpart
    exact List.mem_takeWhile_imp (List.mem_reverse.mp hpart)

theorem dropIdleEnd_concat {parts : List Text} {part : Text} (h : isIdle part = false) :
    dropIdleEnd (parts ++ [part]) = parts ++ [part] :=
  List.rdropWhile_concat_neg isIdle parts part (Bool.eq_false_iff.mp h)

theorem foldl_dropIdleEnd (parts : List Text) :
    (dropIdleEnd parts).foldl (pushPart absolute) kept = parts.foldl (pushPart absolute) kept := by
  induction parts using List.reverseRecOn with
  | nil => rfl
  | append_singleton parts part ih =>
    by_cases hidle : isIdle part = true
    · have hdrop : dropIdleEnd (parts ++ [part]) = dropIdleEnd parts :=
        List.rdropWhile_concat_pos isIdle parts part hidle
      rw [hdrop, ih, List.foldl_append, List.foldl_cons, pushPart_idle hidle]
      rfl
    · rw [dropIdleEnd_concat (Bool.eq_false_iff.mpr hidle)]

/-- The pieces of a path keep the same names as everything between its slashes. -/
theorem foldl_bodyPieces (p : Path) :
    (bodyPieces p).foldl (pushPart absolute) kept = (names p).foldl (pushPart absolute) kept := by
  rw [bodyPieces, foldl_dropIdleEnd]
  unfold splitHead
  split
  · rfl
  · rfl
  · next rest =>
    have hslash : List.splitOn '/' ('/' :: rest) = [] :: List.splitOn '/' rest :=
      List.splitOn_append_cons_self [] rest
    have hdot : names ('.' :: '/' :: rest) = here :: List.splitOn '/' rest :=
      List.splitOn_append_cons_self here rest
    rw [hslash, hdot, List.foldl_cons, List.foldl_cons, pushPart_idle rfl, pushPart_idle rfl]
  · next hhead _ _ =>
    rw [names]
    exact hhead

theorem bodyPieces_of_isAbsolute (h : isAbsolute p = true) : bodyPieces p = dropIdleEnd (names p) := by
  cases p with
  | nil => cases h
  | cons c rest =>
    obtain rfl : c = '/' := by simpa [isAbsolute] using h
    rfl

/-! ## File names -/

theorem slash_not_mem_bodyPieces : ∀ part ∈ bodyPieces p, '/' ∉ part := by
  intro part hpart
  exact Lists.not_mem_of_mem_splitOn ((dropIdleEnd_isPrefix _).subset hpart)

theorem fileName?_eq_some_iff :
    fileName? p = some name ↔ (bodyPieces p).getLast? = some name ∧ name ≠ up := by
  unfold fileName?
  split
  · next last hlast =>
    rw [hlast]
    split
    · next hup => simp [hup, eq_comm]
    · next hup =>
      refine ⟨fun h => ?_, fun h => h.1⟩
      obtain rfl := Option.some.inj h
      exact ⟨rfl, hup⟩
  · next hnone => simp [hnone]

theorem bodyPieces_of_fileName? (h : fileName? p = some name) :
    bodyPieces p = (bodyPieces p).dropLast ++ [name] :=
  (List.dropLast_append_getLast? _ (fileName?_eq_some_iff.mp h).1).symm

theorem isName_of_fileName? (h : fileName? p = some name) : IsName name := by
  obtain ⟨hlast, hup⟩ := fileName?_eq_some_iff.mp h
  have hne : bodyPieces p ≠ [] := by
    intro hnil
    rw [hnil] at hlast
    cases hlast
  rw [List.getLast?_eq_some_getLast hne] at hlast
  obtain rfl := Option.some.inj hlast
  refine ⟨?_, ?_, hup⟩
  · exact slash_not_mem_bodyPieces _ (List.getLast_mem hne)
  · exact isIdle_getLast_dropIdleEnd hne

/-- A path with a file name keeps that name last. -/
theorem foldl_names_of_fileName? (h : fileName? p = some name) :
    (names p).foldl (pushPart absolute) kept =
      name :: (bodyPieces p).dropLast.foldl (pushPart absolute) kept := by
  rw [← foldl_bodyPieces, bodyPieces_of_fileName? h, List.foldl_append, List.dropLast_concat]
  exact pushPart_name (isName_of_fileName? h)

/-! ## Parents -/

/-- The pieces of the path before. -/
def parentPieces (p : Path) : List Text :=
  dropIdleEnd (bodyPieces p).dropLast

theorem parent?_of_isAbsolute (h : isAbsolute p = true) :
    parent? p = if bodyPieces p = [] then none
      else some ('/' :: ['/'].intercalate (parentPieces p)) := by
  cases p with
  | nil => cases h
  | cons c rest =>
    obtain rfl : c = '/' := by simpa [isAbsolute] using h
    have hstart : (splitHead ('/' :: rest)).1 = ['/'] := rfl
    unfold parent? parentPieces
    simp only [hstart]
    cases bodyPieces ('/' :: rest) with
    | nil => rfl
    | cons piece pieces => rfl

theorem isAbsolute_of_parent? (h : isAbsolute p = true) (hq : parent? p = some q) :
    isAbsolute q = true := by
  rw [parent?_of_isAbsolute h] at hq
  split at hq
  · cases hq
  · obtain rfl := Option.some.inj hq
    rfl

theorem names_of_parent? (h : isAbsolute p = true) (hq : parent? p = some q) :
    names q = if parentPieces p = [] then [[]] else parentPieces p := by
  rw [parent?_of_isAbsolute h] at hq
  split at hq
  · cases hq
  · obtain rfl := Option.some.inj hq
    show List.splitOn '/' (['/'].intercalate (parentPieces p)) = _
    split
    · next hnil =>
      rw [hnil]
      rfl
    · next hne =>
      refine List.splitOn_intercalate '/' (fun part hpart => ?_) hne
      exact slash_not_mem_bodyPieces part (List.dropLast_subset _ ((dropIdleEnd_isPrefix _).subset hpart))

/-- The path before keeps the names of the parts before the last one. -/
theorem foldl_names_of_parent? (h : isAbsolute p = true) (hq : parent? p = some q) :
    (names q).foldl (pushPart absolute) kept =
      (bodyPieces p).dropLast.foldl (pushPart absolute) kept := by
  rw [names_of_parent? h hq, ← foldl_dropIdleEnd (bodyPieces p).dropLast]
  split
  · next hnil =>
    rw [parentPieces] at hnil
    rw [hnil]
    rfl
  · rfl

/-- The path before is the root, or its names are the first ones of the path. -/
theorem names_parent_isPrefix (h : isAbsolute p = true) (hq : parent? p = some q) :
    names q = [[]] ∨ names q <+: names p := by
  rw [names_of_parent? h hq]
  split
  · exact .inl rfl
  · right
    have hpieces : bodyPieces p <+: names p := by
      rw [bodyPieces_of_isAbsolute h]
      exact dropIdleEnd_isPrefix _
    exact (dropIdleEnd_isPrefix _).trans ((List.dropLast_prefix _).trans hpieces)

theorem parent?_of_fileName? (habsolute : isAbsolute p = true) (h : fileName? p = some name) :
    parent? p = some (parent p) := by
  have hne : bodyPieces p ≠ [] := by
    rw [bodyPieces_of_fileName? h]
    exact List.concat_ne_nil _ _
  rw [parent, parent?_of_isAbsolute habsolute, if_neg hne]
  rfl

/-! ## A name behind a path -/

theorem names_append_slash (hp : isAbsolute p = true) (more : Text) :
    names (p ++ '/' :: more) = names p ++ List.splitOn '/' more := by
  cases p with
  | nil => cases hp
  | cons c rest =>
    obtain rfl : c = '/' := by simpa [isAbsolute] using hp
    exact List.splitOn_append_cons_self rest more

theorem bodyPieces_append_name (hp : isAbsolute p = true) (hname : IsName name) :
    bodyPieces (p ++ '/' :: name) = names p ++ [name] := by
  have habsolute : isAbsolute (p ++ '/' :: name) = true := by
    cases p with
    | nil => cases hp
    | cons c rest => exact hp
  rw [bodyPieces_of_isAbsolute habsolute, names_append_slash hp,
    List.splitOn_eq_singleton hname.noSlash, dropIdleEnd_concat hname.notIdle]

theorem fileName?_append_name (hp : isAbsolute p = true) (hname : IsName name) :
    fileName? (p ++ '/' :: name) = some name := by
  rw [fileName?_eq_some_iff, bodyPieces_append_name hp hname, List.getLast?_concat]
  exact ⟨rfl, hname.notUp⟩

/-- A path that does not end in an idle part is the parent of every name behind it. -/
theorem parent_append_name (hp : isAbsolute p = true) (hname : IsName name)
    (hend : dropIdleEnd (names p) = names p) : parent (p ++ '/' :: name) = p := by
  have hpieces := bodyPieces_append_name hp hname
  have hparent : parentPieces (p ++ '/' :: name) = names p := by
    rw [parentPieces, hpieces, List.dropLast_concat, hend]
  cases p with
  | nil => cases hp
  | cons c rest =>
    obtain rfl : c = '/' := by simpa [isAbsolute] using hp
    rw [parent, parent?_of_isAbsolute rfl, if_neg (by rw [hpieces]; exact List.concat_ne_nil _ _), hparent]
    show '/' :: ['/'].intercalate (List.splitOn '/' rest) = '/' :: rest
    rw [List.intercalate_splitOn]

end AmdBundle.Path
