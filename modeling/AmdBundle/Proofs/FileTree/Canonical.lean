import AmdBundle.Proofs.FileTree.Provision

/-!
# Places that walks arrive at

A walk may follow links, but the place that it arrives at is reached along its own names without any.
So a file is one and the same along its path and along the path of the place where its folder stands,
with links anywhere on the way.

* `IsReal` : a place that is reached along its own names; `isReal_of_walk` : every walk ends at one;
* `walk_det`, `walk_append_of_zero` : walks with different numbers of links, and walks that go on;
* `locate_canonical` : a path and the path of the place of its folder;
* `contentOf_of_writeFile_provisioned` : what is written along a path stands where it was provisioned.
-/

set_option autoImplicit false

namespace AmdBundle.FileTree
open AmdBundle.Path

variable {fs made now written : FileTree} {links : Nat} {base loc mid found folder : Location}
  {names more : List Text} {p : Path} {name : Text}

/-! ## Walks with and without links -/

/-- Two walks along the same names arrive at one place, however many links they may follow. -/
theorem walk_det {links' : Nat} {found' : Location} (h : fs.walk links base names = .ok found)
    (h' : fs.walk links' base names = .ok found') : found = found' :=
  Except.ok.inj ((walk_of_le (Nat.le_max_left links links') h).symm.trans
    (walk_of_le (Nat.le_max_right links links') h'))

/-- A walk goes on behind a place that is reached without links, as many as it may follow. -/
theorem walk_append_of_zero (h : fs.walk 0 base names = .ok mid) (links : Nat) (more : List Text) :
    fs.walk links base (names ++ more) = fs.walk links mid more := by
  induction names generalizing base with
  | nil =>
    rw [walk] at h
    rw [List.nil_append, Except.ok.inj h]
  | cons name names ih =>
    rw [walk] at h
    rw [List.cons_append, walk]
    split at h
    · cases h
    · next hfolder =>
      rw [if_neg hfolder]
      split at h
      · next hidle => rw [if_pos hidle, ih h]
      · next hidle =>
        rw [if_neg hidle]
        split at h
        · next hup => rw [if_pos hup, ih h]
        · next hup =>
          rw [if_neg hup]
          split at h
          · cases h
          · next hlength =>
            rw [if_neg hlength]
            split at h
            · cases h
            · cases h
            · exact ih h

/-- A walk arrives at the same place without the idle names at the end. -/
theorem walk_dropIdleEnd (h : fs.walk links base names = .ok found) :
    fs.walk links base (dropIdleEnd names) = .ok found := by
  obtain ⟨idles, hnames, hidles⟩ := exists_dropIdleEnd names
  rw [hnames] at h
  obtain ⟨mid, hmid, hrest⟩ := walk_append h
  rw [eq_of_walk_idles hidles hrest]
  exact hmid

/-! ## Real places -/

/-- The place is reached along its own names, without any link. -/
structure IsReal (fs : FileTree) (loc : Location) : Prop where
  isName : ∀ name ∈ loc, IsName name
  walk : fs.walk 0 [] loc = .ok loc

theorem isReal_root (fs : FileTree) : fs.IsReal [] :=
  ⟨by simp, by rw [FileTree.walk]⟩

namespace IsReal

theorem dropLast (h : fs.IsReal loc) : fs.IsReal loc.dropLast := by
  rcases List.eq_nil_or_concat loc with rfl | ⟨front, last, rfl⟩
  · exact h
  · rw [List.concat_eq_append] at h ⊢
    rw [List.dropLast_concat]
    refine ⟨fun name hname => h.isName name (List.mem_append_left _ hname), ?_⟩
    have hlast : IsName last := h.isName last (by simp)
    -- The last step follows no link either, so it only puts its name behind the place before it.
    obtain ⟨mid, hmid, hrest⟩ := walk_append h.walk
    have hstep : mid ++ [last] = front ++ [last] := by
      rw [FileTree.walk] at hrest
      split at hrest
      · cases hrest
      · rw [if_neg (by simp [hlast.notIdle]), if_neg hlast.notUp] at hrest
        split at hrest
        · cases hrest
        · split at hrest
          · cases hrest
          · cases hrest
          · rw [FileTree.walk] at hrest
            exact Except.ok.inj hrest
    rw [hmid, (List.append_inj' hstep rfl).1]

theorem concat {entry : Entry} (h : fs.IsReal base) (hname : IsName name)
    (hfolder : fs.isFolderAt base = true) (hlength : Text.byteLength name ≤ nameLimit)
    (hfind : fs.find? (base ++ [name]) = some entry) (hentry : ∀ target, entry ≠ .link target) :
    fs.IsReal (base ++ [name]) := by
  refine ⟨List.forall_mem_append.mpr ⟨h.isName, List.forall_mem_singleton.mpr hname⟩, ?_⟩
  rw [walk_append_of_zero h.walk, walk_cons hfolder hname hlength hfind hentry, FileTree.walk]

theorem linkBase (h : fs.IsReal base) (target : Path) : fs.IsReal (linkBase target base) := by
  unfold FileTree.linkBase
  split
  · exact isReal_root fs
  · exact h

theorem set_file (h : fs.IsReal base) (hloc : fs.TakesFile loc) (content : Bytes) :
    (fs.set loc (.file content)).IsReal base :=
  ⟨h.isName, walk_set_of_ok hloc content h.walk⟩

end IsReal

/-- **Every walk from a real place ends at one.** -/
theorem isReal_of_walk (hbase : fs.IsReal base) (hnames : ∀ name ∈ names, '/' ∉ name)
    (h : fs.walk links base names = .ok found) : fs.IsReal found := by
  fun_induction walk fs links base names with
  | case1 =>
    obtain rfl := Except.ok.inj h
    exact hbase
  | case2 => cases h
  | case3 _ _ _ _ _ _ ih => exact ih hbase (List.forall_mem_cons.mp hnames).2 h
  | case4 _ _ _ _ _ ih => exact ih hbase.dropLast (List.forall_mem_cons.mp hnames).2 h
  | case5 => cases h
  | case6 => cases h
  | case7 => cases h
  | case8 _ _ _ _ _ _ _ target _ _ ih =>
    -- A link goes on from the root, or from the folder that it stands in.
    have htarget : ∀ name ∈ Path.names target, '/' ∉ name := slash_not_mem_names
    have hrest := (List.forall_mem_cons.mp hnames).2
    exact ih (hbase.linkBase target) (List.forall_mem_append.mpr ⟨htarget, hrest⟩) h
  | case9 _ base name _ hfolder hidle hup hlength entry hlink hfind ih =>
    obtain ⟨hslash, hrest⟩ := List.forall_mem_cons.mp hnames
    have hname : IsName name := ⟨hslash, by simpa using hidle, hup⟩
    exact ih (hbase.concat hname (by simpa using hfolder) (Nat.not_lt.mp hlength) hfind hlink) hrest h

/-! ## Paths -/

/-- A path that is seen from the current folder leads to the same place from the root. -/
theorem walk_names_absolute (hreal : fs.IsReal fs.current) (h : fs.locate p = .ok found) :
    fs.walk linkLimit [] (Path.names (fs.absolute p)) = .ok found := by
  unfold locate at h
  split at h
  · cases h
  · unfold startOf at h
    split at h
    · next hp => rwa [absolute, join, if_pos hp]
    · next hp =>
      -- The names of the current folder lead there without links, whatever comes behind them.
      have hp : isAbsolute p = false := Bool.eq_false_iff.mpr hp
      obtain ⟨front, hfront, hjoin⟩ := names_join (List.cons_ne_nil _ _) hp
      have hcurrent : fs.walk 0 [] (Path.names fs.currentPath) = .ok fs.current := by
        rw [currentPath, names_pathOf hreal.isName]
        split
        · next hroot => rw [hroot, walk_idle_root]
        · exact hreal.walk
      have hwalk : fs.walk 0 [] front = .ok fs.current := by
        rcases hfront with hfront | hfront
        · rwa [← hfront]
        · rw [currentPath, pathOf, hfront] at hcurrent
          obtain ⟨mid, hmid, hend⟩ := walk_append hcurrent
          rwa [eq_of_walk_idles (by simp [isIdle]) hend]
      show fs.walk linkLimit [] (Path.names (join ('/' :: _) p)) = .ok found
      rw [hjoin, walk_append_of_zero hwalk, ← names_of_relative hp]
      exact h

/-- The last step of a path, from the place of its folder. -/
theorem walk_fileName (hreal : fs.IsReal fs.current) (hname : fileName? (fs.absolute p) = some name)
    (hfolder : fs.locate (fs.wayTo p) = .ok folder) (h : fs.locate p = .ok found) :
    fs.walk linkLimit folder [name] = .ok found ∧ fs.IsReal folder := by
  have habsolute := isAbsolute_absolute fs p
  have hparent := parent?_of_fileName? habsolute hname
  have hbody := walk_dropIdleEnd (walk_names_absolute hreal h)
  rw [← bodyPieces_of_isAbsolute habsolute, bodyPieces_of_fileName? hname] at hbody
  obtain ⟨mid, hmid, hlast⟩ := walk_append hbody
  have hway : fs.walk linkLimit [] (Path.names (fs.wayTo p)) = .ok folder := by
    unfold locate at hfolder
    split at hfolder
    · cases hfolder
    · rwa [startOf, wayTo, if_pos (isAbsolute_of_parent? habsolute hparent)] at hfolder
  refine ⟨?_, isReal_of_walk (isReal_root fs) slash_not_mem_names hway⟩
  have hmid := walk_dropIdleEnd hmid
  rw [wayTo, names_of_parent? habsolute hparent] at hway
  split at hway
  · next hpieces =>
    rw [parentPieces] at hpieces
    rw [hpieces, walk] at hmid
    rw [walk_idle_root] at hway
    obtain rfl := Except.ok.inj hway
    obtain rfl := Except.ok.inj hmid
    exact hlast
  · rwa [walk_det hway hmid]

/-- **A path leads to the same file as the path of the place of its folder**, with its name behind. -/
theorem locate_canonical (hreal : fs.IsReal fs.current) (hname : fileName? (fs.absolute p) = some name)
    (hfolder : fs.locate (fs.wayTo p) = .ok folder) (h : fs.locate p = .ok found)
    (hpath : refused? (pathOf (folder ++ [name])) = none) :
    fs.locate (pathOf (folder ++ [name])) = .ok found := by
  obtain ⟨hlast, hplace⟩ := walk_fileName hreal hname hfolder h
  have hnames : ∀ part ∈ folder ++ [name], IsName part :=
    List.forall_mem_append.mpr
      ⟨hplace.isName, List.forall_mem_singleton.mpr (isName_of_fileName? hname)⟩
  rw [locate, hpath]
  show fs.walk linkLimit [] _ = _
  rw [names_pathOf hnames, if_neg (List.concat_ne_nil _ _), walk_append_of_zero hplace.walk]
  exact hlast

/-- What is written along the path of a file that was provisioned stands at its place, as long as the
folder is where it was. -/
theorem contentOf_of_writeFile_provisioned {content : Bytes}
    (h : fs.provision p = (made, .ok loc)) (hcurrent : now.current = fs.current)
    (hreal : now.IsReal now.current) (hfolder : now.locate (fs.wayTo p) = .ok loc.dropLast)
    (hwrite : now.writeFile p content = .ok written) : written.contentOf (pathOf loc) = .ok content := by
  have habsolute : now.absolute p = fs.absolute p := by
    unfold absolute currentPath
    rw [hcurrent]
  have hprovisioned := provisioned fs p
  rw [h] at hprovisioned
  cases hprovisioned with
  | @succeeds _ name folder _ _ hname _ hplace =>
    have hpath : refused? (pathOf (folder ++ [name])) = none := by
      unfold placeOf at hplace
      split at hplace
      · cases hplace
      · next hpath => exact hpath
    obtain ⟨place, hwritten, rfl⟩ := writeFile_eq_ok_iff.mp hwrite
    have htakes := takesFile_of_placeOf hwritten
    rw [List.dropLast_concat, wayTo, ← habsolute] at hfolder
    rw [← habsolute] at hname
    have hplaced : (now.set place (.file content)).locate (pathOf (folder ++ [name])) = .ok place :=
      locate_canonical (hreal.set_file htakes content) hname (locate_set_of_ok htakes content hfolder)
        (locate_set_of_placeOf htakes content hwritten) hpath
    exact contentOf_eq_ok_iff.mpr ⟨place, hplaced, by rw [find?_set htakes.notRoot, if_pos rfl]⟩

end AmdBundle.FileTree
