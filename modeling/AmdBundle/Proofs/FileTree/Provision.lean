import AmdBundle.Proofs.FileTree.Spelled
import AmdBundle.Watch.Provision

/-!
# What provisioning a file changes

Before a file is made or emptied, the folders that are missing on the way to it are made. Nothing else
in the tree changes, so whatever a path led to it leads to still.

* `MakesWay` : folders were made on a way, where nothing stood; `MakesWay.trans`;
* `MakesWay.contentOf` : what a file held it holds still;
* `makesWay_makeFolder`, `makesWay_makeFolders` : making folders does no more than that;
* `Provisioned`, `provisioned` : what provisioning does, whether it succeeds or fails;
* `contentOf_of_unprovisioned`, `find?_of_provision`, `contentOf_of_provision` : what becomes of other
  files;
* `IsAbove` : places above a file; `exists_of_provision`, `find?_provision` : what provisioning does
  in a tree without links.
-/

set_option autoImplicit false

namespace AmdBundle.FileTree
open AmdBundle.Path

variable {fs made written : FileTree} {way p q : Path} {loc found : Location}

/-! ## Trees that stay without links -/

theorem hasNoLinks_set {entry : Entry} (hlinks : fs.HasNoLinks)
    (hentry : ∀ target, entry ≠ .link target) (loc : Location) : (fs.set loc entry).HasNoLinks := by
  have hput : ∀ entries : List (Location × Entry),
      (∀ item ∈ entries, ∀ target, item.2 ≠ .link target) →
      ∀ item ∈ put loc entry entries, ∀ target, item.2 ≠ .link target := by
    intro entries hentries
    induction entries with
    | nil => exact List.forall_mem_singleton.mpr hentry
    | cons item entries ih =>
      obtain ⟨hitem, hentries⟩ := List.forall_mem_cons.mp hentries
      rw [put]
      split
      · exact List.forall_mem_cons.mpr ⟨hentry, hentries⟩
      · exact List.forall_mem_cons.mpr ⟨hitem, ih hentries⟩
  exact hput fs.entries hlinks

/-! ## Folders on a way -/

/-- The place is spelled by the first names of the way. -/
def OnWay (way : Path) (key : Location) : Prop :=
  ∃ front, front <+: Path.names way ∧ key = settle [] front

/-- Folders were made where nothing stood; in a tree without links, only on the way. -/
structure MakesWay (way : Path) (fs made : FileTree) : Prop where
  current : made.current = fs.current
  noLinks : fs.HasNoLinks → made.HasNoLinks
  find? : ∀ key, made.find? key = fs.find? key ∨
    fs.find? key = none ∧ made.find? key = some .folder ∧ (fs.HasNoLinks → OnWay way key)

namespace MakesWay

theorem refl (way : Path) (fs : FileTree) : MakesWay way fs fs :=
  ⟨rfl, id, fun _ => .inl rfl⟩

theorem trans (h : MakesWay way fs made) (h' : MakesWay way made written) :
    MakesWay way fs written := by
  refine ⟨h'.current.trans h.current, h'.noLinks ∘ h.noLinks, fun key => ?_⟩
  rcases h.find? key, h'.find? key with
    ⟨hsame | ⟨hnone, hfolder, hway⟩, hsame' | ⟨hnone', hfolder', hway'⟩⟩
  · exact .inl (hsame'.trans hsame)
  · exact .inr ⟨hsame ▸ hnone', hfolder', hway' ∘ h.noLinks⟩
  · exact .inr ⟨hnone, hsame'.trans hfolder, hway⟩
  · exact absurd (hfolder.symm.trans hnone') (by simp)

theorem find?_of_some (h : MakesWay way fs made) {key : Location} {entry : Entry}
    (hfind : fs.find? key = some entry) : made.find? key = some entry := by
  rcases h.find? key with hsame | ⟨hnone, -, -⟩
  · exact hsame.trans hfind
  · rw [hnone] at hfind
    cases hfind

theorem isFolderAt (h : MakesWay way fs made) {key : Location}
    (hfolder : ¬ (!fs.isFolderAt key) = true) : ¬ (!made.isFolderAt key) = true := by
  have hfind : fs.find? key = some .folder := by simpa [FileTree.isFolderAt] using hfolder
  simp [FileTree.isFolderAt, h.find?_of_some hfind]

/-- Whatever a walk led to it leads to still. -/
theorem walk (h : MakesWay way fs made) {links : Nat} {names : List Text}
    (hwalk : fs.walk links loc names = .ok found) : made.walk links loc names = .ok found := by
  fun_induction FileTree.walk fs links loc names with
  | case1 => rwa [FileTree.walk]
  | case2 => cases hwalk
  | case3 _ _ _ _ hfolder hidle ih =>
    rw [FileTree.walk, if_neg (h.isFolderAt hfolder), if_pos hidle]
    exact ih hwalk
  | case4 _ _ _ hfolder hidle ih =>
    rw [FileTree.walk, if_neg (h.isFolderAt hfolder), if_neg hidle, if_pos rfl]
    exact ih hwalk
  | case5 => cases hwalk
  | case6 => cases hwalk
  | case7 => cases hwalk
  | case8 _ _ _ hfolder hidle hup hlength _ hfind _ ih =>
    rw [FileTree.walk, if_neg (h.isFolderAt hfolder), if_neg hidle, if_neg hup, if_neg hlength,
      h.find?_of_some hfind]
    exact ih hwalk
  | case9 _ _ _ _ hfolder hidle hup hlength entry hlink hfind ih =>
    -- What stood there stands there still, so the walk goes on as before.
    rw [FileTree.walk, if_neg (h.isFolderAt hfolder), if_neg hidle, if_neg hup, if_neg hlength,
      h.find?_of_some hfind]
    cases entry with
    | link target => exact absurd rfl (hlink target)
    | file content => exact ih hwalk
    | folder => exact ih hwalk

theorem locate (h : MakesWay way fs made) (hlocate : fs.locate p = .ok found) :
    made.locate p = .ok found := by
  unfold FileTree.locate startOf at hlocate ⊢
  rw [h.current]
  split at hlocate
  · cases hlocate
  · exact h.walk hlocate

theorem contentOf (h : MakesWay way fs made) {content : Bytes}
    (hcontent : fs.contentOf p = .ok content) : made.contentOf p = .ok content := by
  obtain ⟨found, hlocate, hfind⟩ := contentOf_eq_ok_iff.mp hcontent
  exact contentOf_eq_ok_iff.mpr ⟨found, h.locate hlocate, h.find?_of_some hfind⟩

end MakesWay

/-! ## Making folders -/

theorem dropEmptyEnd_isPrefix (names : List Text) : dropEmptyEnd names <+: names :=
  List.rdropWhile_prefix List.isEmpty names

theorem exists_of_makeFolder (h : fs.makeFolder p = .ok made) :
    ∃ front name loc, dropEmptyEnd (Path.names p) = front ++ [name] ∧
      fs.walk linkLimit (fs.startOf p) front = .ok loc ∧ isIdle name = false ∧ name ≠ up ∧
      fs.find? (loc ++ [name]) = none ∧ made = fs.set (loc ++ [name]) .folder := by
  rw [makeFolder] at h
  split at h
  · cases h
  · obtain ⟨loc, hwalk, h⟩ := Outcome.bind_eq_ok_iff.mp h
    split at h
    · cases h
    · next name hlast =>
      split at h
      · cases h
      · split at h
        · cases h
        · next hplain =>
          split at h
          · cases h
          · split at h
            · cases h
            · next hfind =>
              obtain ⟨hidle, hup⟩ : isIdle name = false ∧ name ≠ up := by simpa using hplain
              exact ⟨_, name, loc, (List.dropLast_append_getLast? _ hlast).symm, hwalk, hidle, hup,
                hfind, (Except.ok.inj h).symm⟩

/-- The path is the root, or goes the first part of the way. -/
def GoesAlong (way p : Path) : Prop :=
  isAbsolute p = true ∧ (Path.names p = [[]] ∨ Path.names p <+: Path.names way)

theorem GoesAlong.parent? (h : GoesAlong way p) (hq : Path.parent? p = some q) : GoesAlong way q := by
  obtain ⟨habsolute, hnames⟩ := h
  refine ⟨isAbsolute_of_parent? habsolute hq, ?_⟩
  rcases hnames with hroot | hprefix
  · rw [parent?_of_isAbsolute habsolute, bodyPieces_of_isAbsolute habsolute, hroot] at hq
    cases hq
  · exact (names_parent_isPrefix habsolute hq).imp_right fun h => h.trans hprefix

theorem goesAlong_of_mem_ancestors {fuel : Nat} (h : GoesAlong way p) :
    ∀ q ∈ ancestors fuel p, GoesAlong way q := by
  induction fuel generalizing p with
  | zero => simp [ancestors]
  | succ fuel ih =>
    rw [ancestors]
    split
    · simp
    · next before hbefore =>
      split
      · simp
      · exact List.forall_mem_cons.mpr ⟨h.parent? hbefore, ih (h.parent? hbefore)⟩

theorem makesWay_makeFolder (hp : GoesAlong way p) (h : fs.makeFolder p = .ok made) :
    MakesWay way fs made := by
  obtain ⟨front, name, loc, hnames, hwalk, hidle, hup, hfind, rfl⟩ := exists_of_makeFolder h
  refine ⟨rfl, fun hlinks => hasNoLinks_set hlinks (by simp) _, fun key => ?_⟩
  rw [find?_set (by simp)]
  split
  · next hkey =>
    subst hkey
    refine .inr ⟨hfind, rfl, fun hlinks => ?_⟩
    have hloc : loc = settle [] front := by
      rw [startOf, if_pos hp.1] at hwalk
      exact eq_settle_of_walk hlinks (by simp) hwalk
    refine ⟨dropEmptyEnd (Path.names p), ?_, ?_⟩
    · rcases hp.2 with hroot | hprefix
      · rw [hroot] at hnames
        exact absurd hnames (by simp [dropEmptyEnd])
      · exact (dropEmptyEnd_isPrefix _).trans hprefix
    · rw [hnames, settle_append, settle_name hidle hup, settle_nil, hloc]
  · exact .inl rfl

theorem makesWay_ensureFolder (hp : GoesAlong way p) : MakesWay way fs (fs.ensureFolder p).1 := by
  unfold ensureFolder
  split
  · next hmade => exact makesWay_makeFolder hp hmade
  · exact .refl way fs

theorem makesWay_makeFoldersFrom {paths : List Path} (hp : GoesAlong way p)
    (hpaths : ∀ q ∈ paths, GoesAlong way q) : MakesWay way fs (fs.makeFoldersFrom p paths).1 := by
  induction paths generalizing p with
  | nil => exact makesWay_ensureFolder hp
  | cons next more ih =>
    -- The folders before are made first, and the folder itself in the tree that they leave.
    obtain ⟨hnext, hmore⟩ := List.forall_mem_cons.mp hpaths
    have hbefore := ih hnext hmore
    rw [makeFoldersFrom]
    split
    · split
      · next prepared hprepared =>
        rw [hprepared] at hbefore
        exact hbefore.trans (makesWay_ensureFolder hp)
      · next prepared fault hprepared =>
        rw [hprepared] at hbefore
        exact hbefore
    · exact makesWay_ensureFolder hp

theorem makesWay_makeFolders (habsolute : isAbsolute way = true) :
    MakesWay way fs (fs.makeFolders way).1 := by
  have hway : GoesAlong way way := ⟨habsolute, .inr (List.prefix_refl _)⟩
  unfold makeFolders
  split
  · exact .refl way fs
  · exact makesWay_makeFoldersFrom hway (goesAlong_of_mem_ancestors hway)

/-- No folder is made along a path that is refused. -/
theorem makeFolders_of_refused {fault : FileError} (h : refused? way = some fault)
    (hfault : fault ≠ .notFound) : fs.makeFolders way = (fs, some fault) := by
  have hne : way ≠ [] := by
    rintro rfl
    exact hfault (Option.some.inj h).symm
  have hmake : fs.makeFolder way = .error fault := by
    rw [makeFolder, h]
  have hnone : fs.isFolder way = false := by
    rw [isFolder, entryAt?, locate, h]
    rfl
  have hensure : fs.ensureFolder way = (fs, some fault) := by
    rw [ensureFolder, hmake, hnone]
    rfl
  rw [makeFolders, if_neg (by simpa using hne)]
  cases ancestors way.length way with
  | nil => exact hensure
  | cons next more =>
    rw [makeFoldersFrom, hmake]
    cases fault with
    | notFound => exact absurd rfl hfault
    | _ => exact hensure

/-! ## Provisioning -/

/-- The path of the folder of a file, seen from the root. -/
def wayTo (fs : FileTree) (p : Path) : Path :=
  Path.parent (fs.absolute p)

/-- What provisioning does: it makes way, and if it succeeds, then the file is empty. -/
inductive Provisioned (fs : FileTree) (p : Path) : FileTree × Except String Location → Prop
  | fails {made : FileTree} {reason : String} (hway : MakesWay (fs.wayTo p) fs made) :
      Provisioned fs p (made, .error reason)
  | succeeds {made : FileTree} {name : Text} {folder loc : Location}
      (hway : MakesWay (fs.wayTo p) fs made) (hname : fileName? (fs.absolute p) = some name)
      (hfolder : made.locate (fs.wayTo p) = .ok folder)
      (hplace : made.placeOf (pathOf (folder ++ [name])) = .ok loc) :
      Provisioned fs p (made.set loc (.file []), .ok (folder ++ [name]))

/-- **What provisioning a file changes.** -/
theorem provisioned (fs : FileTree) (p : Path) : Provisioned fs p (fs.provision p) := by
  rw [provision]
  split
  · exact .fails (.refl _ _)
  · next name hname =>
    have habsolute := isAbsolute_absolute fs p
    have hway : MakesWay (fs.wayTo p) fs (fs.makeFolders (fs.wayTo p)).1 :=
      makesWay_makeFolders (isAbsolute_of_parent? habsolute (parent?_of_fileName? habsolute hname))
    split
    · next made fault hmade =>
      rw [wayTo, hmade] at hway
      exact .fails hway
    · next made hmade =>
      rw [wayTo, hmade] at hway
      rw [provisionIn]
      split
      · exact .fails hway
      · next folder hfolder =>
        split
        · exact .fails hway
        · next written hwrite =>
          obtain ⟨loc, hplace, rfl⟩ := writeFile_eq_ok_iff.mp hwrite
          exact .succeeds hway hname hfolder hplace

/-- Nothing is provisioned if the path of its folder is refused. -/
theorem provision_of_refused {name : Text} {fault : FileError}
    (hname : fileName? (fs.absolute p) = some name) (h : refused? (fs.wayTo p) = some fault)
    (hfault : fault ≠ .notFound) : fs.provision p = (fs, .error fault.message) := by
  have hmake : fs.makeFolders (Path.parent (fs.absolute p)) = (fs, some fault) :=
    makeFolders_of_refused h hfault
  rw [provision, hname]
  simp only [hmake]

/-! ## Places above a file -/

/-- The place is spelled by the first parts of the way to a file. Unless they lead up again, the file
stands below it. -/
structure IsAbove (fs : FileTree) (p : Path) (key : Location) : Prop where
  onWay : OnWay (fs.wayTo p) key
  below : up ∉ Path.names (fs.wayTo p) →
    ∃ rest, rest ≠ [] ∧ fs.spelled p = key ++ rest

theorem OnWay.isAbove (hrooted : fs.IsRooted) {key : Location} {name : Text}
    (hname : fileName? (fs.absolute p) = some name) (h : OnWay (fs.wayTo p) key) :
    fs.IsAbove p key := by
  refine ⟨h, fun hup => ?_⟩
  obtain ⟨front, ⟨rest, hrest⟩, rfl⟩ := h
  have habsolute := isAbsolute_absolute fs p
  have hparent := parent?_of_fileName? habsolute hname
  have hrestUp : up ∉ rest := fun hmem => hup (hrest ▸ List.mem_append_right front hmem)
  have hway : fs.spelled (fs.wayTo p) = settle [] front ++ rest.filter fun part => !isIdle part := by
    rw [wayTo, spelled_of_isAbsolute (isAbsolute_of_parent? habsolute hparent), ← wayTo, ← hrest,
      settle_append, settle_of_up_not_mem hrestUp]
  refine ⟨(rest.filter fun part => !isIdle part) ++ [name], List.concat_ne_nil _ _, ?_⟩
  rw [← spelled_absolute hrooted, spelled_of_fileName? hname, startOf, if_pos habsolute,
    ← spelled_parent habsolute hparent, ← wayTo, hway, List.append_assoc]

/-! ## Other files -/

theorem contentOf_of_unprovisioned {reason : String} {content : Bytes}
    (h : fs.provision p = (written, .error reason)) (hcontent : fs.contentOf q = .ok content) :
    written.contentOf q = .ok content := by
  have hprovisioned := provisioned fs p
  rw [h] at hprovisioned
  cases hprovisioned with
  | fails hway => exact hway.contentOf hcontent

/-- A file is empty once it was provisioned, and all others are as they were. -/
theorem find?_of_provision {content : Bytes} (h : fs.provision p = (written, .ok loc))
    (hcontent : fs.contentOf q = .ok content) :
    ∃ placed found, written.locate (pathOf loc) = .ok placed ∧ fs.locate q = .ok found ∧
      written.locate q = .ok found ∧
      written.find? found = some (.file (if found = placed then [] else content)) := by
  have hprovisioned := provisioned fs p
  rw [h] at hprovisioned
  cases hprovisioned with
  | @succeeds made name folder placed hway _ _ hplace =>
    have htakes := takesFile_of_placeOf hplace
    obtain ⟨found, hfound, hfind⟩ := contentOf_eq_ok_iff.mp hcontent
    refine ⟨placed, found, locate_set_of_placeOf htakes _ hplace, hfound,
      locate_set_of_ok htakes _ (hway.locate hfound), ?_⟩
    rw [find?_set htakes.notRoot]
    split
    · rfl
    · exact hway.find?_of_some hfind

/-- Provisioning empties the file that is provisioned, by whichever path it is read, and no other. -/
theorem contentOf_of_provision {content : Bytes} (h : fs.provision p = (written, .ok loc))
    (hcontent : fs.contentOf q = .ok content) :
    written.locate (pathOf loc) = written.locate q ∧ written.contentOf q = .ok [] ∨
      written.locate (pathOf loc) ≠ written.locate q ∧ written.contentOf q = .ok content := by
  obtain ⟨placed, found, hplaced, -, hfound, hfind⟩ := find?_of_provision h hcontent
  rw [hplaced, hfound]
  by_cases heq : found = placed
  · rw [if_pos heq] at hfind
    exact .inl ⟨congrArg _ heq.symm, contentOf_eq_ok_iff.mpr ⟨found, hfound, hfind⟩⟩
  · rw [if_neg heq] at hfind
    exact .inr ⟨fun hsame => heq (Except.ok.inj hsame).symm,
      contentOf_eq_ok_iff.mpr ⟨found, hfound, hfind⟩⟩

/-! ## Provisioning without links -/

section
variable (hlinks : fs.HasNoLinks) (hrooted : fs.IsRooted)
include hlinks hrooted

/-- Where there are no links, the file is made where its path says. -/
theorem Provisioned.eq_spelled {name : Text} {folder : Location}
    (hway : MakesWay (fs.wayTo p) fs made) (hname : fileName? (fs.absolute p) = some name)
    (hfolder : made.locate (fs.wayTo p) = .ok folder)
    (hplace : made.placeOf (pathOf (folder ++ [name])) = .ok loc) :
    folder ++ [name] = fs.spelled p ∧ loc = fs.spelled p := by
  have hlinks' := hway.noLinks hlinks
  have hrooted' : made.IsRooted := by
    unfold IsRooted
    rwa [hway.current]
  have habsolute := isAbsolute_absolute fs p
  have hparent := parent?_of_fileName? habsolute hname
  have hspelled : folder ++ [name] = fs.spelled p := by
    rw [← spelled_absolute hrooted p, spelled_of_fileName? hname, startOf, if_pos habsolute,
      eq_spelled_of_locate hlinks' hrooted' hfolder, wayTo, spelled_parent habsolute hparent]
  refine ⟨hspelled, ?_⟩
  rw [eq_spelled_of_placeOf hlinks' hrooted' hplace, hspelled]
  exact spelled_pathOf (isName_spelled hrooted p)

/-- What stands in a tree without links once a file was provisioned. -/
theorem exists_of_provision (h : fs.provision p = (written, .ok loc)) :
    loc = fs.spelled p ∧ ∃ made : FileTree, MakesWay (fs.wayTo p) fs made ∧ made.TakesFile loc ∧
      written = made.set loc (.file []) := by
  have hprovisioned := provisioned fs p
  rw [h] at hprovisioned
  cases hprovisioned with
  | succeeds hway hname hfolder hplace =>
    obtain ⟨hwatched, hloc⟩ := Provisioned.eq_spelled hlinks hrooted hway hname hfolder hplace
    obtain rfl := hloc.trans hwatched.symm
    exact ⟨hwatched, _, hway, takesFile_of_placeOf hplace, rfl⟩

/-- **What provisioning a file changes** where there are no links: the file is empty, and folders above
it were made where nothing stood. -/
theorem find?_provision (p : Path) (key : Location) :
    (fs.provision p).1.find? key = fs.find? key ∨
      (fs.find? key = none ∧ (fs.provision p).1.find? key = some .folder ∧ fs.IsAbove p key) ∨
      key = fs.spelled p ∧ (fs.provision p).1.find? key = some (.file []) := by
  cases hname : fileName? (fs.absolute p) with
  | none =>
    left
    rw [provision, hname]
  | some name =>
    have hmade : ∀ {made : FileTree}, MakesWay (fs.wayTo p) fs made →
        made.find? key = fs.find? key ∨
          fs.find? key = none ∧ made.find? key = some .folder ∧ fs.IsAbove p key := by
      intro made hway
      rcases hway.find? key with hsame | ⟨hnone, hfolder, honWay⟩
      · exact .inl hsame
      · exact .inr ⟨hnone, hfolder, (honWay hlinks).isAbove hrooted hname⟩
    have hprovisioned := provisioned fs p
    generalize fs.provision p = result at hprovisioned ⊢
    cases hprovisioned with
    | fails hway => exact (hmade hway).imp_right .inl
    | succeeds hway hname' hfolder hplace =>
      obtain ⟨-, rfl⟩ := Provisioned.eq_spelled hlinks hrooted hway hname' hfolder hplace
      rw [find?_set (takesFile_of_placeOf hplace).notRoot]
      split
      · next hkey => exact .inr (.inr ⟨hkey, rfl⟩)
      · exact (hmade hway).imp_right .inl

/-- What is watched then is the file that the path spells. -/
theorem eq_spelled_of_provision {placed : Location} (h : fs.provision p = (written, .ok loc))
    (hplaced : written.locate (pathOf loc) = .ok placed) : placed = fs.spelled p := by
  obtain ⟨rfl, made, hway, -, rfl⟩ := exists_of_provision hlinks hrooted h
  have hlinks' : (made.set (fs.spelled p) (.file [])).HasNoLinks :=
    hasNoLinks_set (hway.noLinks hlinks) (by simp) _
  exact locate_pathOf hlinks' (isName_spelled hrooted p) hplaced

end

end AmdBundle.FileTree
