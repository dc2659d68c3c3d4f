import AmdBundle.Proofs.Path.Stack

/-!
# Relative clean paths

What a relative path keeps is a stack of names above steps up: a step up takes the name above it away,
and where there is none it stays below all names to come.

* `IsKept` : such a stack; `isKept_stack` : every relative path leaves one behind;
* `along` : the relative path along some parts; `clean_of_relative` : the clean form goes along what
  is kept;
* `IsShortest` : no idle part, and all steps up in front; `isShortest_clean`;
* `clean_clean` : a clean path is its own clean form;
* `foldl_dropSlashes` : slashes in front add nothing to the stack.
-/

set_option autoImplicit false

namespace AmdBundle.Path

/-- What a relative path can keep: names above steps up. -/
inductive IsKept : List Text → Prop
  | ups (steps : Nat) : IsKept (List.replicate steps up)
  | name {part : Text} {below : List Text} (hpart : IsName part) (hbelow : IsKept below) :
      IsKept (part :: below)

/-- The relative path along the parts. -/
def along : List Text → Path
  | [] => here
  | parts => ['/'].intercalate parts

/-- A relative path of which nothing can be left out. -/
structure IsShortest (p : Path) : Prop where
  nonempty : p ≠ []
  notIdle : p = here ∨ ∀ part ∈ List.splitOn '/' p, isIdle part = false
  /-- All steps up stand in front. -/
  upsFirst : ∃ steps names, List.splitOn '/' p = List.replicate steps up ++ names ∧ up ∉ names

variable {kept parts : List Text} {part : Text} {p : Path}

/-! ## What is kept -/

theorem isKept_pushPart (h : IsKept kept) (hpart : '/' ∉ part) : IsKept (pushPart false kept part) := by
  by_cases hidle : isIdle part = true
  · rw [pushPart_idle hidle]
    exact h
  · by_cases hup : part = up
    · subst hup
      cases h with
      | ups steps =>
        cases steps with
        | zero => exact .ups 1
        | succ steps => exact .ups (steps + 2)
      | name htop hbelow =>
        rw [pushPart_up htop.notUp]
        exact hbelow
    · have hname : IsName part := ⟨hpart, Bool.eq_false_iff.mpr hidle, hup⟩
      rw [pushPart_name hname]
      exact .name hname h

theorem isKept_foldl_pushPart (h : IsKept kept) (hparts : ∀ part ∈ parts, '/' ∉ part) :
    IsKept (parts.foldl (pushPart false) kept) := by
  induction parts generalizing kept with
  | nil => exact h
  | cons part parts ih =>
    obtain ⟨hpart, hparts⟩ := List.forall_mem_cons.mp hparts
    exact ih (isKept_pushPart h hpart) hparts

theorem isKept_stack (h : isAbsolute p = false) : IsKept (stack p) := by
  unfold stack
  rw [h]
  exact isKept_foldl_pushPart (.ups 0) slash_not_mem_names

namespace IsKept

theorem up_or_isName (h : IsKept kept) : ∀ part ∈ kept, part = up ∨ IsName part := by
  induction h with
  | ups steps => exact fun part hpart => .inl (List.eq_of_mem_replicate hpart)
  | name hpart _ ih => exact List.forall_mem_cons.mpr ⟨.inr hpart, ih⟩

theorem noSlash (h : IsKept kept) (hpart : part ∈ kept) : '/' ∉ part := by
  rcases h.up_or_isName part hpart with rfl | hname
  · decide
  · exact hname.noSlash

theorem notIdle (h : IsKept kept) (hpart : part ∈ kept) : isIdle part = false := by
  rcases h.up_or_isName part hpart with rfl | hname
  · decide
  · exact hname.notIdle

theorem exists_names (h : IsKept kept) :
    ∃ steps names, kept.reverse = List.replicate steps up ++ names ∧ ∀ part ∈ names, IsName part := by
  induction h with
  | ups steps => exact ⟨steps, [], by simp, by simp⟩
  | @name part below hpart _ ih =>
    obtain ⟨steps, names, hbelow, hnames⟩ := ih
    refine ⟨steps, names ++ [part], ?_, ?_⟩
    · rw [List.reverse_cons, hbelow, List.append_assoc]
    · exact List.forall_mem_append.mpr ⟨hnames, List.forall_mem_singleton.mpr hpart⟩

end IsKept

/-! ## Along what is kept -/

theorem foldl_ups (steps before : Nat) :
    (List.replicate steps up).foldl (pushPart false) (List.replicate before up) =
      List.replicate (steps + before) up := by
  induction steps generalizing before with
  | zero => simp
  | succ steps ih =>
    have hpush : pushPart false (List.replicate before up) up = List.replicate (before + 1) up := by
      cases before <;> rfl
    rw [List.replicate_succ, List.foldl_cons, hpush, ih]
    congr 1
    omega

/-- Read from the bottom, what is kept is kept again. -/
theorem IsKept.foldl_reverse (h : IsKept kept) : kept.reverse.foldl (pushPart false) [] = kept := by
  induction h with
  | ups steps =>
    rw [List.reverse_replicate]
    exact foldl_ups steps 0
  | name hpart _ ih =>
    rw [List.reverse_cons, List.foldl_append, ih, List.foldl_cons, pushPart_name hpart]
    rfl

theorem along_of_ne_nil (h : parts ≠ []) : along parts = ['/'].intercalate parts := by
  cases parts with
  | nil => exact absurd rfl h
  | cons part parts => rfl

theorem IsKept.splitOn_along (h : IsKept kept) (hne : kept ≠ []) :
    List.splitOn '/' (along kept.reverse) = kept.reverse := by
  have hreverse : kept.reverse ≠ [] := fun heq => hne (List.reverse_eq_nil_iff.mp heq)
  rw [along_of_ne_nil hreverse]
  exact List.splitOn_intercalate '/' (fun part hpart => h.noSlash (List.mem_reverse.mp hpart)) hreverse

theorem IsKept.foldl_along (h : IsKept kept) :
    (List.splitOn '/' (along kept.reverse)).foldl (pushPart false) [] = kept := by
  by_cases hne : kept = []
  · subst hne
    rfl
  · rw [h.splitOn_along hne, h.foldl_reverse]

theorem splitOn_slash (p : Path) : List.splitOn '/' ('/' :: p) = [] :: List.splitOn '/' p :=
  List.splitOn_append_cons_self [] p

theorem isAbsolute_of_splitOn {first : Text} (h : List.splitOn '/' p = first :: parts)
    (hfirst : first ≠ []) : isAbsolute p = false := by
  cases p with
  | nil => rfl
  | cons c p =>
    refine Bool.eq_false_iff.mpr fun habsolute => hfirst ?_
    obtain rfl : c = '/' := by simpa [isAbsolute] using habsolute
    exact (List.cons.inj (h.symm.trans (splitOn_slash p))).1

theorem IsKept.isAbsolute_along (h : IsKept kept) : isAbsolute (along kept.reverse) = false := by
  by_cases hne : kept = []
  · subst hne
    rfl
  · obtain ⟨first, more, hparts⟩ :=
      List.exists_cons_of_ne_nil fun heq => hne (List.reverse_eq_nil_iff.mp heq)
    have hmem : first ∈ kept := List.mem_reverse.mp (by rw [hparts]; exact List.mem_cons_self)
    refine isAbsolute_of_splitOn ((h.splitOn_along hne).trans hparts) ?_
    rintro rfl
    exact Bool.noConfusion (h.notIdle hmem)

theorem IsKept.isShortest (h : IsKept kept) : IsShortest (along kept.reverse) := by
  by_cases hne : kept = []
  · subst hne
    exact ⟨by decide, .inl rfl, 0, [here], rfl, by decide⟩
  · have hsplit := h.splitOn_along hne
    refine ⟨fun hnil => ?_, .inr fun part hpart => ?_, ?_⟩
    · have hidle : [] ∈ kept := by
        rw [hnil] at hsplit
        exact List.mem_reverse.mp (by rw [← hsplit]; exact List.mem_singleton_self [])
      exact Bool.noConfusion (h.notIdle hidle)
    · rw [hsplit] at hpart
      exact h.notIdle (List.mem_reverse.mp hpart)
    · obtain ⟨steps, names, hparts, hnames⟩ := h.exists_names
      exact ⟨steps, names, hsplit.trans hparts, fun hup => (hnames up hup).notUp rfl⟩

/-! ## The clean form -/

theorem clean_of_relative (h : isAbsolute p = false) : clean p = along (stack p).reverse := by
  unfold clean cleanParts stack
  rw [h, if_neg Bool.false_ne_true]
  rfl

theorem isAbsolute_clean (h : isAbsolute p = false) : isAbsolute (clean p) = false := by
  rw [clean_of_relative h]
  exact (isKept_stack h).isAbsolute_along

theorem isShortest_clean (h : isAbsolute p = false) : IsShortest (clean p) := by
  rw [clean_of_relative h]
  exact (isKept_stack h).isShortest

/-- **A clean path is its own clean form.** -/
theorem clean_clean (h : isAbsolute p = false) : clean (clean p) = clean p := by
  have hclean := isAbsolute_clean h
  refine clean_congr (hclean.trans h.symm) ?_
  rw [stack, hclean, names_of_relative hclean, clean_of_relative h]
  exact (isKept_stack h).foldl_along

/-! ## Slashes in front -/

theorem isAbsolute_dropSlashes (p : Path) : isAbsolute (p.dropWhile (· == '/')) = false := by
  induction p with
  | nil => rfl
  | cons c p ih =>
    by_cases hc : c = '/'
    · rw [List.dropWhile_cons_of_pos (by simp [hc])]
      exact ih
    · rw [List.dropWhile_cons_of_neg (by simp [hc])]
      simp [isAbsolute, hc]

theorem foldl_dropSlashes (absolute : Bool) (kept : List Text) (p : Path) :
    (List.splitOn '/' (p.dropWhile (· == '/'))).foldl (pushPart absolute) kept =
      (List.splitOn '/' p).foldl (pushPart absolute) kept := by
  induction p with
  | nil => rfl
  | cons c p ih =>
    by_cases hc : c = '/'
    · subst hc
      rw [List.dropWhile_cons_of_pos (by simp), ih, splitOn_slash, List.foldl_cons, pushPart_idle rfl]
    · rw [List.dropWhile_cons_of_neg (by simp [hc])]

end AmdBundle.Path
