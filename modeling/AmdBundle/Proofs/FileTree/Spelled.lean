import AmdBundle.Proofs.FileTree.Write
import AmdBundle.Proofs.Path.Last

/-!
# Where paths lead by their spelling

Where no entry is a link, `..` on a walk takes back the step before it, so where a path leads can be
told from its spelling and the current folder. Clean paths are such places written down.

* `settle`, `spelled` : the place that names or a path spell;
* `eq_spelled_of_locate`, `eq_spelled_of_placeOf` : no path leads to another place;
* `spelled_join`, `spelled_of_fileName?` : paths put together and taken apart;
* `clean_absolute_eq_iff` : two paths have one clean form exactly if they spell one place.
-/

set_option autoImplicit false

namespace AmdBundle.FileTree
open AmdBundle.Path

/-- The place that names spell, seen from another one. -/
def settle (base : Location) (names : List Text) : Location :=
  (names.foldl (pushPart true) base.reverse).reverse

/-- The place that a path spells. -/
def spelled (fs : FileTree) (p : Path) : Location :=
  settle (fs.startOf p) (Path.names p)

/-- The current folder is reached from the root along names. -/
def IsRooted (fs : FileTree) : Prop :=
  ∀ name ∈ fs.current, IsName name

variable {fs : FileTree} {base found : Location} {names more : List Text} {p q : Path}

/-! ## Names that are spelled -/

@[simp] theorem settle_nil (base : Location) : settle base [] = base :=
  List.reverse_reverse base

theorem settle_append (base : Location) (names more : List Text) :
    settle base (names ++ more) = settle (settle base names) more := by
  simp only [settle, List.foldl_append, List.reverse_reverse]

theorem settle_idle {name : Text} (hidle : isIdle name = true) :
    settle base (name :: names) = settle base names := by
  simp only [settle, List.foldl_cons, pushPart_idle hidle]

theorem settle_up (hbase : ∀ name ∈ base, name ≠ up) :
    settle base (up :: names) = settle base.dropLast names := by
  -- At the root a step up stays where it is, just as on a walk.
  have hpush : pushPart true base.reverse up = base.dropLast.reverse := by
    rcases List.eq_nil_or_concat base with rfl | ⟨front, last, rfl⟩
    · rfl
    · rw [List.concat_eq_append] at hbase ⊢
      have hlast : last ≠ up := hbase last (by simp)
      simpa using pushPart_up hlast
  simp only [settle, List.foldl_cons, hpush]

theorem settle_name {name : Text} (hidle : isIdle name = false) (hup : name ≠ up) :
    settle base (name :: names) = settle (base ++ [name]) names := by
  have hpush : pushPart true base.reverse name = (base ++ [name]).reverse := by
    unfold pushPart
    rw [if_neg (Bool.eq_false_iff.mp hidle), if_neg hup, List.reverse_concat]
  simp only [settle, List.foldl_cons, hpush]

theorem settle_of_isName (h : ∀ name ∈ names, IsName name) : settle base names = base ++ names := by
  rw [settle, foldl_pushPart_names h, List.reverse_append, List.reverse_reverse,
    List.reverse_reverse]

/-- Parts that do not lead up are kept, but for idle ones. -/
theorem settle_of_up_not_mem (h : up ∉ names) :
    settle base names = base ++ names.filter fun name => !isIdle name := by
  induction names generalizing base with
  | nil => simp
  | cons name names ih =>
    have hname : name ≠ up := fun heq => h (by simp [heq])
    have hnames : up ∉ names := fun hmem => h (List.mem_cons_of_mem _ hmem)
    by_cases hidle : isIdle name = true
    · rw [settle_idle hidle, ih hnames, List.filter_cons_of_neg (by simp [hidle])]
    · rw [settle_name (Bool.eq_false_iff.mpr hidle) hname, ih hnames,
        List.filter_cons_of_pos (by simp [hidle]), List.append_assoc, List.singleton_append]

theorem isName_settle (hbase : ∀ name ∈ base, IsName name) (hnames : ∀ name ∈ names, '/' ∉ name) :
    ∀ name ∈ settle base names, IsName name := by
  intro name hname
  refine isName_foldl_pushPart ?_ hnames name (List.mem_reverse.mp hname)
  exact fun q hq => hbase q (List.mem_reverse.mp hq)

/-! ## Walks -/

/-- A walk that meets no link arrives where its names say. -/
theorem eq_settle_of_walk (hlinks : fs.HasNoLinks) {links : Nat} (hbase : ∀ name ∈ base, name ≠ up)
    (h : fs.walk links base names = .ok found) : found = settle base names := by
  fun_induction walk fs links base names with
  | case1 => simpa [settle] using (Except.ok.inj h).symm
  | case2 => cases h
  | case3 _ _ _ _ _ hidle ih =>
    rw [settle_idle hidle]
    exact ih hbase h
  | case4 _ _ _ _ _ ih =>
    rw [settle_up hbase]
    exact ih (fun name hname => hbase name (List.dropLast_subset _ hname)) h
  | case5 => cases h
  | case6 => cases h
  | case7 => cases h
  | case8 _ _ _ _ _ _ _ target hfind => exact absurd hfind (find?_ne_link hlinks _ target)
  | case9 _ base name _ _ hidle hup _ _ _ _ ih =>
    rw [settle_name (by simpa using hidle) hup]
    exact ih (List.forall_mem_append.mpr ⟨hbase, List.forall_mem_singleton.mpr hup⟩) h

/-- Where no link is met, a file is made where its names say. -/
theorem eq_settle_of_place (hlinks : fs.HasNoLinks) {links : Nat} (hbase : ∀ name ∈ base, name ≠ up)
    (h : fs.place links base names = .ok found) : found = settle base names := by
  fun_induction place fs links base names with
  | case1 => cases h
  | case2 => cases h
  | case3 _ _ _ _ _ hidle ih =>
    rw [settle_idle hidle]
    exact ih hbase h
  | case4 _ _ _ _ _ ih =>
    rw [settle_up hbase]
    exact ih (fun name hname => hbase name (List.dropLast_subset _ hname)) h
  | case5 => cases h
  | case6 => cases h
  | case7 _ base name rest _ hidle hup _ _ _ hrest =>
    obtain rfl := List.isEmpty_iff.mp hrest
    rw [settle_name (by simpa using hidle) hup]
    simpa [settle] using (Except.ok.inj h).symm
  | case8 => cases h
  | case9 => cases h
  | case10 _ _ _ _ _ _ _ _ target hfind => exact absurd hfind (find?_ne_link hlinks _ target)
  | case11 _ base name rest _ hidle hup _ _ _ _ hrest =>
    obtain rfl := List.isEmpty_iff.mp hrest
    rw [settle_name (by simpa using hidle) hup]
    simpa [settle] using (Except.ok.inj h).symm
  | case12 _ base name rest _ hidle hup _ _ _ _ _ ih =>
    rw [settle_name (by simpa using hidle) hup]
    exact ih (List.forall_mem_append.mpr ⟨hbase, List.forall_mem_singleton.mpr hup⟩) h
  | case13 _ base name rest _ hidle hup _ _ _ ih =>
    rw [settle_name (by simpa using hidle) hup]
    exact ih (List.forall_mem_append.mpr ⟨hbase, List.forall_mem_singleton.mpr hup⟩) h

/-! ## Paths -/

theorem isName_startOf (hrooted : fs.IsRooted) (p : Path) : ∀ name ∈ fs.startOf p, IsName name := by
  unfold startOf
  split
  · simp
  · exact hrooted

theorem spelled_of_isAbsolute (hp : isAbsolute p = true) : fs.spelled p = settle [] (Path.names p) := by
  rw [spelled, startOf, if_pos hp]

theorem isName_spelled (hrooted : fs.IsRooted) (p : Path) : ∀ name ∈ fs.spelled p, IsName name :=
  isName_settle (isName_startOf hrooted p) slash_not_mem_names

theorem spelled_pathOf (hnames : ∀ name ∈ names, IsName name) : fs.spelled (pathOf names) = names := by
  show settle [] (Path.names (pathOf names)) = names
  rw [names_pathOf hnames]
  split
  · next hnil =>
    subst hnil
    rfl
  · exact settle_of_isName hnames

/-- **Without links a path leads where it says.** -/
theorem eq_spelled_of_locate (hlinks : fs.HasNoLinks) (hrooted : fs.IsRooted)
    (h : fs.locate p = .ok found) : found = fs.spelled p := by
  unfold locate at h
  split at h
  · cases h
  · exact eq_settle_of_walk hlinks (fun name hname => (isName_startOf hrooted p name hname).notUp) h

theorem eq_spelled_of_placeOf (hlinks : fs.HasNoLinks) (hrooted : fs.IsRooted)
    (h : fs.placeOf p = .ok found) : found = fs.spelled p := by
  unfold placeOf at h
  split at h
  · cases h
  · exact eq_settle_of_place hlinks (fun name hname => (isName_startOf hrooted p name hname).notUp) h

/-- What a path spells depends on nothing in the tree but its current folder. -/
theorem spelled_congr {fs' : FileTree} (hcurrent : fs'.current = fs.current) (p : Path) :
    fs'.spelled p = fs.spelled p := by
  unfold spelled startOf
  rw [hcurrent]

/-! ## Paths put together and taken apart -/

theorem spelled_join (fs : FileTree) (p : Path) (hq : isAbsolute q = false) :
    fs.spelled (join p q) = settle (fs.spelled p) (Path.names q) := by
  by_cases hp : p = []
  · subst hp
    have hjoin : join [] q = q := by simp [join, hq]
    have hhere : fs.spelled [] = fs.current := settle_idle rfl |>.trans (settle_nil fs.current)
    rw [hjoin, hhere, spelled, startOf, hq, if_neg Bool.false_ne_true]
  · obtain ⟨front, hfront, hjoin⟩ := names_join hp hq
    have hsame : fs.spelled p = settle (fs.startOf p) front := by
      unfold spelled
      rcases hfront with hfront | hfront
      · rw [hfront]
      · rw [hfront, settle_append, settle_idle rfl, settle_nil]
    rw [spelled, startOf_join hp hq, hjoin, settle_append, ← hsame, names_of_relative hq]

theorem spelled_of_fileName? {name : Text} (h : fileName? p = some name) :
    fs.spelled p = settle (fs.startOf p) (bodyPieces p).dropLast ++ [name] := by
  rw [spelled, settle, foldl_names_of_fileName? h, List.reverse_cons]
  rfl

theorem spelled_parent (habsolute : isAbsolute p = true) (hq : parent? p = some q) :
    fs.spelled q = settle [] (bodyPieces p).dropLast := by
  rw [spelled_of_isAbsolute (isAbsolute_of_parent? habsolute hq), settle,
    foldl_names_of_parent? habsolute hq]
  rfl

/-! ## Clean paths -/

theorem pathOf_inj {a b : List Text} (ha : ∀ name ∈ a, IsName name) (hb : ∀ name ∈ b, IsName name)
    (h : pathOf a = pathOf b) : a = b := by
  have hspelled : ∀ fs : FileTree, fs.spelled (pathOf a) = fs.spelled (pathOf b) := fun _ => by rw [h]
  simpa only [spelled_pathOf ha, spelled_pathOf hb] using hspelled { entries := [], current := [] }

theorem isAbsolute_absolute (fs : FileTree) (p : Path) : isAbsolute (fs.absolute p) = true :=
  isAbsolute_join (isAbsolute_pathOf fs.current)

/-- A path seen from the current folder spells the same place. -/
theorem spelled_absolute (hrooted : fs.IsRooted) (p : Path) :
    fs.spelled (fs.absolute p) = fs.spelled p := by
  by_cases hp : isAbsolute p = true
  · rw [absolute, join, if_pos hp]
  · have hp : isAbsolute p = false := Bool.eq_false_iff.mpr hp
    rw [absolute, spelled_join fs _ hp, currentPath, spelled_pathOf hrooted, spelled, startOf, hp,
      if_neg Bool.false_ne_true]

theorem clean_of_isAbsolute (fs : FileTree) (hp : isAbsolute p = true) :
    clean p = pathOf (fs.spelled p) := by
  rw [clean, if_pos hp, spelled_of_isAbsolute hp]
  rfl

/-- **Two paths have one clean form exactly if they spell one place.** -/
theorem clean_absolute_eq_iff (fs : FileTree) (p q : Path) :
    clean (fs.absolute p) = clean (fs.absolute q) ↔
      fs.spelled (fs.absolute p) = fs.spelled (fs.absolute q) := by
  have hnames : ∀ r, ∀ name ∈ fs.spelled (fs.absolute r), IsName name := by
    intro r
    rw [spelled_of_isAbsolute (isAbsolute_absolute fs r)]
    exact isName_settle (by simp) slash_not_mem_names
  rw [clean_of_isAbsolute fs (isAbsolute_absolute fs p),
    clean_of_isAbsolute fs (isAbsolute_absolute fs q)]
  constructor
  · exact pathOf_inj (hnames p) (hnames q)
  · exact congrArg pathOf

end AmdBundle.FileTree
