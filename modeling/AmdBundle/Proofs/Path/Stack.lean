import AmdBundle.Proofs.FileTree.Below

/-!
# The stack of names behind a clean path

* `stack` : the names that a path has kept, the last one first; `clean_congr` : the clean form depends
  on nothing else;
* `stack_join` : a path seen from a folder goes on with the stack of that folder;
* `foldl_pushPart_names`, `foldl_pushPart_ups` : names are put on the stack, and as many steps up take
  them away;
* `clean_join_climb` : the way down into folders and up again leads nowhere.
-/

set_option autoImplicit false

namespace AmdBundle.Path

/-- The names that a path has kept, the last one first. -/
def stack (p : Path) : List Text :=
  (names p).foldl (pushPart (isAbsolute p)) []

/-- So many steps up. -/
def climb (steps : Nat) : Path :=
  (List.replicate steps "../".toList).flatten

theorem clean_congr {p q : Path} (habsolute : isAbsolute p = isAbsolute q)
    (hstack : stack p = stack q) : clean p = clean q := by
  unfold stack at hstack
  unfold clean cleanParts
  rw [habsolute] at hstack ⊢
  by_cases hq : isAbsolute q = true
  · rw [hq] at hstack
    rw [if_pos hq, if_pos hq, hstack]
  · rw [Bool.eq_false_iff.mpr hq] at hstack
    rw [if_neg hq, if_neg hq, hstack]

/-! ## One part -/

section
variable {absolute : Bool} {kept parts : List Text} {part : Text}

theorem pushPart_idle (h : isIdle part = true) : pushPart absolute kept part = kept := by
  unfold pushPart
  rw [if_pos h]

theorem pushPart_name (h : IsName part) : pushPart absolute kept part = part :: kept := by
  unfold pushPart
  rw [if_neg (Bool.eq_false_iff.mp h.notIdle), if_neg h.notUp]

theorem pushPart_up (h : part ≠ up) : pushPart absolute (part :: kept) up = kept := by
  unfold pushPart
  rw [if_neg (by decide), if_pos rfl]
  exact if_neg h

/-! ## Down and up -/

theorem foldl_pushPart_names (h : ∀ part ∈ parts, IsName part) :
    parts.foldl (pushPart absolute) kept = parts.reverse ++ kept := by
  induction parts generalizing kept with
  | nil => rfl
  | cons part parts ih =>
    obtain ⟨hpart, hparts⟩ := List.forall_mem_cons.mp h
    rw [List.foldl_cons, pushPart_name hpart, ih hparts, List.reverse_cons, List.append_assoc,
      List.singleton_append]

theorem foldl_pushPart_ups (h : ∀ part ∈ parts, part ≠ up) :
    (List.replicate parts.length up).foldl (pushPart absolute) (parts ++ kept) = kept := by
  induction parts with
  | nil => rfl
  | cons part parts ih =>
    obtain ⟨hpart, hparts⟩ := List.forall_mem_cons.mp h
    rw [List.length_cons, List.replicate_succ, List.foldl_cons, List.cons_append, pushPart_up hpart,
      ih hparts]

theorem foldl_pushPart_return (h : ∀ part ∈ parts, IsName part) :
    (List.replicate parts.length up).foldl (pushPart absolute)
      (parts.foldl (pushPart absolute) kept) = kept := by
  have hback : ∀ part ∈ parts.reverse, part ≠ up := fun part hpart =>
    (h part (List.mem_reverse.mp hpart)).notUp
  rw [foldl_pushPart_names h, ← List.length_reverse]
  exact foldl_pushPart_ups hback

end

/-! ## Paths seen from a folder -/

theorem isAbsolute_join_eq (p : Path) {q : Path} (hq : isAbsolute q = false) :
    isAbsolute (join p q) = isAbsolute p := by
  unfold join
  rw [hq, if_neg Bool.false_ne_true]
  cases p with
  | nil => exact hq
  | cons c p => split <;> rfl

theorem names_of_relative {p : Path} (h : isAbsolute p = false) : names p = List.splitOn '/' p := by
  cases p with
  | nil => rfl
  | cons c p =>
    unfold names
    split
    · next heq =>
      obtain ⟨rfl, -⟩ := List.cons.inj heq
      cases h
    · rfl

theorem stack_join (p : Path) {q : Path} (hq : isAbsolute q = false) :
    stack (join p q) = (names q).foldl (pushPart (isAbsolute p)) (stack p) := by
  unfold stack
  rw [isAbsolute_join_eq p hq]
  by_cases hp : p = []
  · subst hp
    have hjoin : join [] q = q := by simp [join, hq]
    have hempty : (names []).foldl (pushPart (isAbsolute [])) [] = [] := rfl
    rw [hjoin, hempty]
  · obtain ⟨front, hnames, hjoin⟩ := FileTree.names_join hp hq
    have hfront : (names p).foldl (pushPart (isAbsolute p)) [] =
        front.foldl (pushPart (isAbsolute p)) [] := by
      rcases hnames with hnames | hnames
      · rw [hnames]
      · rw [hnames, List.foldl_append, List.foldl_cons, List.foldl_nil]
        exact pushPart_idle rfl
    rw [hjoin, hfront, List.foldl_append, names_of_relative hq]

theorem IsName.isAbsolute {part : Text} (h : IsName part) : isAbsolute part = false := by
  cases part with
  | nil => rfl
  | cons c part =>
    have hc : c ≠ '/' := fun heq => h.noSlash (by simp [heq])
    simpa [Path.isAbsolute] using hc

theorem IsName.names {part : Text} (h : IsName part) : names part = [part] := by
  rw [names_of_relative h.isAbsolute]
  exact List.splitOn_eq_singleton h.noSlash

theorem isAbsolute_foldl_join {folders : List Text} (h : ∀ part ∈ folders, IsName part) (p : Path) :
    isAbsolute (folders.foldl join p) = isAbsolute p := by
  induction folders generalizing p with
  | nil => rfl
  | cons part folders ih =>
    obtain ⟨hpart, hfolders⟩ := List.forall_mem_cons.mp h
    rw [List.foldl_cons, ih hfolders, isAbsolute_join_eq p hpart.isAbsolute]

theorem stack_foldl_join {folders : List Text} (h : ∀ part ∈ folders, IsName part) (p : Path) :
    stack (folders.foldl join p) = folders.foldl (pushPart (isAbsolute p)) (stack p) := by
  induction folders generalizing p with
  | nil => rfl
  | cons part folders ih =>
    obtain ⟨hpart, hfolders⟩ := List.forall_mem_cons.mp h
    rw [List.foldl_cons, ih hfolders, isAbsolute_join_eq p hpart.isAbsolute,
      stack_join p hpart.isAbsolute, hpart.names]
    rfl

/-! ## Steps up in front of a path -/

theorem isAbsolute_climb_append (steps : Nat) {p : Path} (hp : isAbsolute p = false) :
    isAbsolute (climb steps ++ p) = false := by
  cases steps with
  | zero => exact hp
  | succ steps => rfl

theorem names_climb_append (steps : Nat) {p : Path} (hp : isAbsolute p = false) :
    names (climb steps ++ p) = List.replicate steps up ++ names p := by
  induction steps with
  | zero => rfl
  | succ steps ih =>
    have hstep : climb (steps + 1) ++ p = up ++ '/' :: (climb steps ++ p) := rfl
    have hrelative := isAbsolute_climb_append steps hp
    rw [hstep, names_of_relative rfl, List.splitOn_append_cons_self, ← names_of_relative hrelative,
      ih, List.replicate_succ]
    rfl

/-- **The way down into folders and up again leads nowhere.** -/
theorem clean_join_climb {folders : List Text} (h : ∀ part ∈ folders, IsName part) (p : Path)
    {q : Path} (hq : isAbsolute q = false) :
    clean (join (folders.foldl join p) (climb folders.length ++ q)) = clean (join p q) := by
  have hclimb := isAbsolute_climb_append folders.length hq
  refine clean_congr ?_ ?_
  · rw [isAbsolute_join_eq _ hclimb, isAbsolute_foldl_join h, isAbsolute_join_eq p hq]
  · rw [stack_join _ hclimb, isAbsolute_foldl_join h, stack_foldl_join h, names_climb_append _ hq,
      List.foldl_append, foldl_pushPart_return h, stack_join p hq]

end AmdBundle.Path
