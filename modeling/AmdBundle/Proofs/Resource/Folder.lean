import AmdBundle.Proofs.FileTree.Below
import AmdBundle.Proofs.Text.Order
import AmdBundle.Resource.Folder
import Mathlib

/-!
# Folders are packed in order

* `Precedes` : the order of files by their names from the folder;
* `Lists` : all folders on the way to a file can be listed;
* `mem_filesBelow_iff`, `pairwise_filesBelow` : the files below a folder that are found, all of them
  and in order;
* `Packs` : some files by their paths, each once, in order;
* `packs_readable` : those that can be read are packed, however folders list them;
* `not_packs_isBelow` : a file with a path that is too long is left out.
-/

set_option autoImplicit false

namespace AmdBundle.Folder
open AmdBundle.FileTree (FileBelow SameTree pathLimit)

variable {fs : FileTree} {loc : Location}

/-! ## The order of files -/

/-- One file comes before another one: at the first different name a folder before a file, and names
of one kind in the order of their bytes. -/
inductive Precedes : List Text → List Text → Prop
  | folder {x y : Text} {as : List Text} (hne : x ≠ y) (has : as ≠ []) : Precedes (x :: as) [y]
  | name {x y : Text} {as bs : List Text} (hkind : as = [] ↔ bs = [])
      (hlt : Text.encode x < Text.encode y) : Precedes (x :: as) (y :: bs)
  | later {x : Text} {as bs : List Text} (h : Precedes as bs) : Precedes (x :: as) (x :: bs)

theorem Precedes.asymm {a b : List Text} (h : Precedes a b) : ¬ Precedes b a := by
  induction h with
  | folder hne has =>
    intro h'
    cases h' with
    | folder _ hnil => exact hnil rfl
    | name hkind _ => exact has (hkind.mp rfl)
    | later _ => exact hne rfl
  | name hkind hlt =>
    intro h'
    cases h' with
    | folder hne has => exact has (hkind.mp rfl)
    | name _ hlt' => exact List.lt_asymm hlt hlt'
    | later _ => exact List.lt_irrefl _ hlt
  | later h ih =>
    intro h'
    cases h' with
    | folder hne has => exact hne rfl
    | name _ hlt => exact List.lt_irrefl _ hlt
    | later h' => exact ih h'

theorem Precedes.ne {a b : List Text} (h : Precedes a b) : a ≠ b := by
  rintro rfl
  exact h.asymm h

theorem Precedes.append {a b : List Text} (h : Precedes a b) (way : List Text) :
    Precedes (way ++ a) (way ++ b) := by
  induction way with
  | nil => exact h
  | cons name way ih => exact .later ih

/-! ## One folder -/

theorem precedes_trans (a b c : Text × Entry) (hab : precedes a b = true)
    (hbc : precedes b c = true) : precedes a c = true := by
  unfold precedes at *
  cases ha : isFolder a <;> cases hb : isFolder b <;> cases hc : isFolder c <;> simp_all
  all_goals exact Text.before_trans hab hbc

theorem precedes_total (a b : Text × Entry) : (precedes a b || precedes b a) = true := by
  unfold precedes
  cases ha : isFolder a <;> cases hb : isFolder b <;> simp
  all_goals
    by_cases h : Text.before a.1 b.1 = true
    · exact .inl h
    · exact .inr (Text.before_total h)

theorem mem_listing_iff (hsound : fs.IsSound) {item : Text × Entry} :
    item ∈ listing fs loc ↔
      fs.canRead loc = true ∧ fs.find? (loc ++ [item.1]) = some item.2 := by
  rw [listing, List.mem_mergeSort, FileTree.listed]
  split
  · next hcan => rw [FileTree.mem_children_iff hsound, and_iff_right hcan]
  · next hcan => exact iff_of_false List.not_mem_nil fun h => hcan h.1

theorem nodup_listed (hsound : fs.IsSound) (loc : Location) :
    ((fs.listed loc).map Prod.fst).Nodup := by
  unfold FileTree.listed
  split
  · exact FileTree.nodup_children hsound loc
  · exact List.nodup_nil

theorem pairwise_listing (hsound : fs.IsSound) (loc : Location) :
    (listing fs loc).Pairwise fun a b => precedes a b = true ∧ a.1 ≠ b.1 := by
  refine List.Pairwise.and ?_ ?_
  · exact List.pairwise_mergeSort precedes_trans precedes_total _
  · have hperm := (List.mergeSort_perm (fs.listed loc) precedes).map Prod.fst
    exact List.pairwise_map.mp (hperm.nodup_iff.mpr (nodup_listed hsound loc))

/-! ## All files below a folder -/

/-- The folder and all folders on the way along the names can be listed. -/
def Lists (fs : FileTree) (loc : Location) (names : List Text) : Prop :=
  ∀ front, front <+: names → front ≠ names → fs.canRead (loc ++ front) = true

theorem lists_cons_iff {name : Text} {names : List Text} :
    Lists fs loc (name :: names) ↔ fs.canRead loc = true ∧ Lists fs (loc ++ [name]) names := by
  constructor
  · intro h
    refine ⟨by simpa using h [] List.nil_prefix (List.cons_ne_nil _ _).symm, fun front hfront hne => ?_⟩
    have hcan := h (name :: front) (List.cons_prefix_cons.mpr ⟨rfl, hfront⟩) (by simpa using hne)
    rwa [List.append_assoc, List.singleton_append]
  · rintro ⟨hcan, h⟩ front hfront hne
    cases front with
    | nil => rwa [List.append_nil]
    | cons first front =>
      obtain ⟨rfl, hmore⟩ := List.cons_prefix_cons.mp hfront
      have hlisted := h front hmore (by simpa using hne)
      rwa [List.append_assoc, List.singleton_append] at hlisted

/-- The files of one entry of a folder. -/
def filesOf (fs : FileTree) (depth : Nat) (loc : Location) (way : List Text) (item : Text × Entry) :
    List (List Text) :=
  match item.2 with
  | .folder => filesBelow fs depth (loc ++ [item.1]) (way ++ [item.1])
  | .file _ => [way ++ [item.1]]
  | .link _ => []

theorem filesBelow_succ (depth : Nat) (loc : Location) (way : List Text) :
    filesBelow fs (depth + 1) loc way = (listing fs loc).flatMap (filesOf fs depth loc way) := rfl

theorem mem_filesBelow_iff (hsound : fs.IsSound) {depth : Nat} {way names : List Text} :
    names ∈ filesBelow fs depth loc way ↔
      ∃ rest content, names = way ++ rest ∧ FileBelow fs loc rest content ∧ Lists fs loc rest ∧
        rest.length ≤ depth := by
  induction depth generalizing loc way with
  | zero =>
    refine iff_of_false List.not_mem_nil ?_
    rintro ⟨rest, content, -, hbelow, -, hlength⟩
    exact hbelow.ne_nil (List.eq_nil_of_length_eq_zero (Nat.le_zero.mp hlength))
  | succ depth ih =>
    rw [filesBelow_succ, List.mem_flatMap]
    constructor
    · rintro ⟨⟨name, entry⟩, hitem, hnames⟩
      obtain ⟨hcan, hfind⟩ := (mem_listing_iff hsound).mp hitem
      cases entry with
      | folder =>
        obtain ⟨rest, content, rfl, hbelow, hlists, hlength⟩ := ih.mp hnames
        exact ⟨name :: rest, content, by simp, .deeper hfind hbelow,
          lists_cons_iff.mpr ⟨hcan, hlists⟩, Nat.succ_le_succ hlength⟩
      | file content =>
        obtain rfl := List.mem_singleton.mp hnames
        have hlists : Lists fs loc [name] := lists_cons_iff.mpr
          ⟨hcan, fun front hfront hne => absurd (List.prefix_nil.mp hfront) hne⟩
        exact ⟨[name], content, rfl, .here hfind, hlists, Nat.succ_le_succ (Nat.zero_le _)⟩
      | link target => exact absurd hnames List.not_mem_nil
    · rintro ⟨rest, content, rfl, hbelow, hlists, hlength⟩
      cases hbelow with
      | @here _ name _ hfile =>
        have hcan := (lists_cons_iff.mp hlists).1
        exact ⟨(name, .file content), (mem_listing_iff hsound).mpr ⟨hcan, hfile⟩,
          List.mem_singleton.mpr rfl⟩
      | @deeper _ name rest _ hfolder hbelow =>
        obtain ⟨hcan, hlists⟩ := lists_cons_iff.mp hlists
        exact ⟨(name, .folder), (mem_listing_iff hsound).mpr ⟨hcan, hfolder⟩,
          ih.mpr ⟨rest, content, by simp, hbelow, hlists, Nat.le_of_succ_le_succ hlength⟩⟩

/-- The files of one entry begin with its name, and end there if it is no folder. -/
theorem exists_of_mem_filesOf (hsound : fs.IsSound) {depth : Nat} {way names : List Text}
    {item : Text × Entry} (h : names ∈ filesOf fs depth loc way item) :
    ∃ rest, names = way ++ item.1 :: rest ∧ (rest = [] ↔ isFolder item = false) := by
  obtain ⟨name, entry⟩ := item
  cases entry with
  | folder =>
    obtain ⟨rest, content, rfl, hbelow, -, -⟩ := (mem_filesBelow_iff hsound).mp h
    exact ⟨rest, by simp, by simp [hbelow.ne_nil, isFolder]⟩
  | file content =>
    obtain rfl := List.mem_singleton.mp h
    exact ⟨[], rfl, by simp [isFolder]⟩
  | link target => exact absurd h List.not_mem_nil

theorem precedes_of_entries {a b : Text × Entry} (h : precedes a b = true) (hne : a.1 ≠ b.1)
    {as bs : List Text} (has : as = [] ↔ isFolder a = false) (hbs : bs = [] ↔ isFolder b = false) :
    Precedes (a.1 :: as) (b.1 :: bs) := by
  unfold precedes at h
  split at h
  · next hkind =>
    have hsame : isFolder a = isFolder b := by simpa using hkind
    exact .name (by rw [has, hbs, hsame]) (Text.encode_lt_of_before h hne)
  · next hkind =>
    have hfile : isFolder b = false := by
      rw [h] at hkind
      simpa using hkind
    obtain rfl := hbs.mpr hfile
    exact .folder hne fun hnil => by simp [has.mp hnil] at h

/-- **The files below a folder are found in order.** -/
theorem pairwise_filesBelow (hsound : fs.IsSound) (depth : Nat) (loc : Location) (way : List Text) :
    (filesBelow fs depth loc way).Pairwise Precedes := by
  induction depth generalizing loc way with
  | zero => exact List.Pairwise.nil
  | succ depth ih =>
    rw [filesBelow_succ, List.pairwise_flatMap]
    constructor
    · rintro ⟨name, entry⟩ -
      cases entry with
      | folder => exact ih _ _
      | file content => exact List.pairwise_singleton _ _
      | link target => exact List.Pairwise.nil
    · refine (pairwise_listing hsound loc).imp ?_
      rintro a b ⟨hle, hne⟩ names hnames names' hnames'
      obtain ⟨as, rfl, has⟩ := exists_of_mem_filesOf hsound hnames
      obtain ⟨bs, rfl, hbs⟩ := exists_of_mem_filesOf hsound hnames'
      exact (precedes_of_entries hle hne has hbs).append way

/-! ## The packed files -/

/-- The names lead from the folder of that path down to a file, with no link behind the folder. -/
def IsBelow (fs : FileTree) (path : Path) (names : List Text) (content : Bytes) : Prop :=
  ∃ loc, fs.locate path = .ok loc ∧ fs.isFolderAt loc = true ∧ FileBelow fs loc names content

/-- The files in question are packed, each once, by its path from the folder, in base64 and in
order. -/
def Packs (fs : FileTree) (path : Path) (IsIn : List Text → Bytes → Prop) : Prop :=
  ∃ files : List (List Text × Bytes),
    pack fs path = files.map (fun file => (key file.1, Base64.encode file.2)) ∧
    ((pack fs path).map Prod.fst).Nodup ∧
    (∀ names content, (names, content) ∈ files ↔ IsIn names content) ∧
    (files.map Prod.fst).Pairwise Precedes

/-- Nothing else is packed in this way. -/
theorem Packs.unique {fs fs' : FileTree} {path : Path} {IsIn : List Text → Bytes → Prop}
    (h : Packs fs path IsIn) (h' : Packs fs' path IsIn) : pack fs path = pack fs' path := by
  obtain ⟨files, hpack, -, hmem, hsorted⟩ := h
  obtain ⟨files', hpack', -, hmem', hsorted'⟩ := h'
  rw [List.pairwise_map] at hsorted hsorted'
  have hnodup := hsorted.imp fun hlt heq => hlt.ne (congrArg Prod.fst heq)
  have hnodup' := hsorted'.imp fun hlt heq => hlt.ne (congrArg Prod.fst heq)
  have hperm : files.Perm files' := (List.perm_ext_iff_of_nodup hnodup hnodup').mpr
    fun file => (hmem file.1 file.2).trans (hmem' file.1 file.2).symm
  have hfiles : files = files' := hperm.eq_of_pairwise
    (fun _ _ _ _ hlt hlt' => absurd hlt' hlt.asymm) hsorted hsorted'
  rw [hpack, hpack', hfiles]

/-- A file by its names from the folder, with what is read. -/
def opened? (fs : FileTree) (path : Path) (names : List Text) : Option (List Text × Bytes) :=
  (fs.readBytes (Path.join path (key names))).toOption.map fun content => (names, content)

theorem opened?_eq_some_iff {path : Path} {names : List Text} {file : List Text × Bytes} :
    opened? fs path names = some file ↔
      names = file.1 ∧ fs.readBytes (Path.join path (key file.1)) = .ok file.2 := by
  obtain ⟨names', content⟩ := file
  unfold opened?
  cases hread : fs.readBytes (Path.join path (key names)) with
  | error fault =>
    refine iff_of_false (by simp [Except.toOption]) ?_
    rintro ⟨rfl, hok⟩
    rw [hread] at hok
    cases hok
  | ok bytes =>
    constructor
    · intro h
      cases h
      exact ⟨rfl, hread⟩
    · rintro ⟨rfl, hok⟩
      rw [hread] at hok
      cases hok
      rfl

theorem packed?_eq (fs : FileTree) (path : Path) (names : List Text) :
    packed? fs path names =
      (opened? fs path names).map fun file => (key file.1, Base64.encode file.2) := by
  unfold packed? opened?
  cases fs.readBytes (Path.join path (key names)) <;> rfl

theorem eq_of_key_eq {a b : List Text} (ha : ∀ name ∈ a, '/' ∉ name) (hb : ∀ name ∈ b, '/' ∉ name)
    (hane : a ≠ []) (hbne : b ≠ []) (h : key a = key b) : a = b := by
  rw [← List.splitOn_intercalate '/' ha hane, ← List.splitOn_intercalate '/' hb hbne]
  exact congrArg _ h

/-- The names lead from the folder of that path down to a file that can be read, with no link behind
the folder: all folders on the way may be listed, the file may be read, and its whole path is not too
long to be opened. -/
def IsReadable (fs : FileTree) (path : Path) (names : List Text) (content : Bytes) : Prop :=
  ∃ loc, fs.locate path = .ok loc ∧ fs.isFolderAt loc = true ∧ FileBelow fs loc names content ∧
    (∀ front, front <+: names → fs.canRead (loc ++ front) = true) ∧
    Text.byteLength (Path.join path (key names)) ≤ pathLimit

theorem forall_canRead_iff {names : List Text} :
    (∀ front, front <+: names → fs.canRead (loc ++ front) = true) ↔
      Lists fs loc names ∧ fs.canRead (loc ++ names) = true := by
  constructor
  · exact fun h => ⟨fun front hfront _ => h front hfront, h names List.prefix_rfl⟩
  · rintro ⟨hlists, hcan⟩ front hfront
    by_cases heq : front = names
    · rwa [heq]
    · exact hlists front hfront heq

/-- The files below a place that are found and can be opened behind the path. -/
def openedBelow (fs : FileTree) (path : Path) (loc : Location) : List (List Text × Bytes) :=
  (filesBelow fs (fs.entries.length + 1) loc []).filterMap (opened? fs path)

section
variable {path : Path} (hsound : fs.IsSound) (hpath : fs.locate path = .ok loc)
  (hfolder : fs.isFolderAt loc = true)
include hsound hpath hfolder

theorem mem_openedBelow_iff {names : List Text} {content : Bytes} :
    (names, content) ∈ openedBelow fs path loc ↔ IsReadable fs path names content := by
  rw [openedBelow, List.mem_filterMap]
  constructor
  · rintro ⟨_, hnames, hopened⟩
    obtain ⟨rfl, hread⟩ := opened?_eq_some_iff.mp hopened
    obtain ⟨rest, bytes, rfl, hbelow, hlists, -⟩ := (mem_filesBelow_iff hsound).mp hnames
    obtain ⟨rfl, hcan, hshort⟩ := (hbelow.readBytes_join_eq_ok_iff hsound hpath hfolder).mp hread
    exact ⟨loc, hpath, hfolder, hbelow, forall_canRead_iff.mpr ⟨hlists, hcan⟩, hshort⟩
  · rintro ⟨loc', hpath', -, hbelow, hallowed, hshort⟩
    obtain rfl : loc = loc' := Except.ok.inj (hpath.symm.trans hpath')
    obtain ⟨hlists, hcan⟩ := forall_canRead_iff.mp hallowed
    refine ⟨names, ?_, opened?_eq_some_iff.mpr ⟨rfl, ?_⟩⟩
    · exact (mem_filesBelow_iff hsound).mpr
        ⟨names, content, rfl, hbelow, hlists, Nat.le_succ_of_le hbelow.length_le⟩
    · exact (hbelow.readBytes_join_eq_ok_iff hsound hpath hfolder).mpr ⟨rfl, hcan, hshort⟩

omit hpath hfolder in
theorem pairwise_openedBelow :
    (openedBelow fs path loc).Pairwise fun a b => Precedes a.1 b.1 := by
  refine (pairwise_filesBelow hsound _ loc []).filterMap _ ?_
  intro names names' hlt file hfile file' hfile'
  rwa [(opened?_eq_some_iff.mp hfile).1, (opened?_eq_some_iff.mp hfile').1] at hlt

/-- Different files have different paths, since no name has a slash. -/
theorem nodup_keys : ((openedBelow fs path loc).map fun file => key file.1).Nodup := by
  rw [List.Nodup, List.pairwise_map]
  refine (pairwise_openedBelow hsound).imp_of_mem fun {a b} ha hb hlt heq => hlt.ne ?_
  obtain ⟨_, _, _, hbelow, -, -⟩ := (mem_openedBelow_iff hsound hpath hfolder).mp ha
  obtain ⟨_, _, _, hbelow', -, -⟩ := (mem_openedBelow_iff hsound hpath hfolder).mp hb
  exact eq_of_key_eq (fun name hname => (hbelow.canName hsound name hname).noSlash)
    (fun name hname => (hbelow'.canName hsound name hname).noSlash) hbelow.ne_nil hbelow'.ne_nil heq

omit hsound in
theorem pack_eq : pack fs path =
    (openedBelow fs path loc).map fun file => (key file.1, Base64.encode file.2) := by
  rw [pack, hpath, openedBelow, List.map_filterMap]
  simp only [hfolder, if_true, ← packed?_eq]

theorem packs_of_isFolderAt : Packs fs path (IsReadable fs path) := by
  have hpack := pack_eq hpath hfolder
  refine ⟨_, hpack, ?_, fun names content => mem_openedBelow_iff hsound hpath hfolder,
    List.pairwise_map.mpr (pairwise_openedBelow hsound)⟩
  rw [hpack, List.map_map]
  exact nodup_keys hsound hpath hfolder

end

/-- Where there is no folder, nothing is packed. -/
theorem packs_of_not_isFolderAt {path : Path}
    (h : ∀ loc, fs.locate path = .ok loc → fs.isFolderAt loc = false) :
    Packs fs path (IsReadable fs path) := by
  have hpack : pack fs path = [] := by
    unfold pack
    split
    · rfl
    · next loc hpath => rw [h loc hpath, if_neg Bool.false_ne_true]
  refine ⟨[], by simp [hpack], by simp [hpack], fun names content => ?_, List.Pairwise.nil⟩
  refine iff_of_false List.not_mem_nil ?_
  rintro ⟨loc, hpath, hfolder, -⟩
  rw [h loc hpath] at hfolder
  cases hfolder

theorem packs (hsound : fs.IsSound) (path : Path) : Packs fs path (IsReadable fs path) := by
  by_cases h : ∃ loc, fs.locate path = .ok loc ∧ fs.isFolderAt loc = true
  · obtain ⟨loc, hpath, hfolder⟩ := h
    exact packs_of_isFolderAt hsound hpath hfolder
  · exact packs_of_not_isFolderAt fun loc hpath =>
      Bool.eq_false_iff.mpr fun hfolder => h ⟨loc, hpath, hfolder⟩

theorem isReadable_congr {fs' : FileTree} (hsame : SameTree fs fs') (hsound : fs.IsSound) {path : Path}
    {names : List Text} {content : Bytes} (h : IsReadable fs path names content) :
    IsReadable fs' path names content := by
  obtain ⟨loc, hpath, hfolder, hbelow, hallowed, hshort⟩ := h
  rw [hsame.locate hsound] at hpath
  rw [hsame.isFolderAt hsound] at hfolder
  exact ⟨loc, hpath, hfolder, hsame.fileBelow hsound hbelow,
    fun front hfront => hsame.canRead _ ▸ hallowed front hfront, hshort⟩

theorem Packs.congr {path : Path} {IsIn IsIn' : List Text → Bytes → Prop}
    (hiff : ∀ names content, IsIn names content ↔ IsIn' names content) (h : Packs fs path IsIn) :
    Packs fs path IsIn' := by
  obtain ⟨files, hpack, hnodup, hmem, hsorted⟩ := h
  exact ⟨files, hpack, hnodup, fun names content => (hmem names content).trans (hiff _ _), hsorted⟩

/-- **Folders are packed complete and in order.** Every file below the folder that a path leads to,
no link on the way, is packed under its path from there, once and in order, if it can be read. How
folders list their entries does not matter. -/
theorem packs_readable (hsound : fs.IsSound) (path : Path) :
    Packs fs path (IsReadable fs path) ∧ ∀ fs', SameTree fs fs' → pack fs' path = pack fs path := by
  refine ⟨packs hsound path, fun fs' hsame => ?_⟩
  have hsound' := hsame.isSound hsound
  refine Packs.unique ((packs hsound' path).congr fun names content => ?_) (packs hsound path)
  exact ⟨isReadable_congr hsame.symm hsound', isReadable_congr hsame hsound⟩

/-- A folder behind a link, with folders, files and a link below, of which one file cannot be read and
one folder cannot be listed. -/
def mixedFolder : FileTree where
  entries :=
    [(["r".toList], .link "d".toList), (["d".toList], .folder),
      (["d".toList, "b.txt".toList], .file [0]), (["d".toList, "a".toList], .folder),
      (["d".toList, "a".toList, "é".toList], .file (Text.encode "é".toList)),
      (["d".toList, "a".toList, "z".toList], .file []), (["d".toList, "a".toList, "q".toList], .folder),
      (["d".toList, "l".toList], .link "../o".toList), (["o".toList], .folder),
      (["o".toList, "x".toList], .file [1]), (["d".toList, "c".toList], .file [2]),
      (["d".toList, "k".toList], .folder), (["d".toList, "k".toList, "y".toList], .file [3])]
  current := []
  unreadable := [["d".toList, "c".toList], ["d".toList, "k".toList]]

theorem packs_readable_mixed :
    mixedFolder.IsSound ∧ Packs mixedFolder "r".toList (IsReadable mixedFolder "r".toList) ∧
      SameTree mixedFolder { mixedFolder with entries := mixedFolder.entries.reverse } ∧
      pack { mixedFolder with entries := mixedFolder.entries.reverse } "r".toList =
        [("a/z".toList, []), ("a/é".toList, "w6k=".toList), ("b.txt".toList, "AA==".toList)] := by
  have hsound : mixedFolder.IsSound := by decide +kernel
  have hsame : SameTree mixedFolder { mixedFolder with entries := mixedFolder.entries.reverse } :=
    ⟨mixedFolder.entries.reverse_perm.symm, rfl, fun _ => rfl⟩
  obtain ⟨hpacks, hlisted⟩ := packs_readable hsound "r".toList
  refine ⟨hsound, hpacks, hsame, (hlisted _ hsame).trans ?_⟩
  cbv

/-! ## A path that is too long -/

/-- A folder with one file. -/
def smallFolder : FileTree where
  entries := [(["d".toList], .folder), (["d".toList, "a".toList], .file [97])]
  current := []

/-- The folder, with slashes behind its name. -/
def slashPath (n : Nat) : Path :=
  'd' :: List.replicate n '/'

theorem byteLength_slashPath (n : Nat) : Text.byteLength (slashPath n) = n + 1 := by
  induction n with
  | zero => rfl
  | succ n ih =>
    rw [slashPath, List.replicate_succ', ← List.cons_append, Text.byteLength_append]
    exact congrArg (· + 1) ih

theorem names_slashPath (n : Nat) :
    Path.names (slashPath n) = "d".toList :: List.replicate n [] := by
  show List.splitOn '/' (slashPath n) = _
  induction n with
  | zero => rfl
  | succ n ih =>
    rw [slashPath, List.replicate_succ', ← List.cons_append, List.splitOn_append_cons_self]
    rw [slashPath] at ih
    rw [ih, List.splitOn_nil, List.replicate_succ', List.cons_append]

theorem walk_idles {links : Nat} (hfolder : fs.isFolderAt loc = true) (n : Nat) :
    fs.walk links loc (List.replicate n []) = .ok loc := by
  induction n with
  | zero => rw [List.replicate_zero, FileTree.walk]
  | succ n ih => rw [List.replicate_succ, FileTree.walk_idle hfolder rfl, ih]

theorem locate_slashPath (hcurrent : fs.isFolderAt fs.current = true)
    (hfolder : fs.find? (fs.current ++ ["d".toList]) = some .folder) {n : Nat} (h : n < pathLimit) :
    fs.locate (slashPath n) = .ok (fs.current ++ ["d".toList]) := by
  have hfine : FileTree.refused? (slashPath n) = none := by
    refine FileTree.refused?_eq_none_iff.mpr ⟨List.cons_ne_nil _ _, by simp [slashPath], ?_⟩
    rwa [byteLength_slashPath]
  have hname : FileTree.CanName "d".toList := by decide
  rw [FileTree.locate, hfine, names_slashPath]
  show fs.walk FileTree.linkLimit fs.current _ = _
  rw [FileTree.walk_cons hcurrent hname.toIsName hname.short hfolder (by simp)]
  exact walk_idles (by rw [FileTree.isFolderAt, hfolder]; rfl) n

theorem join_slashPath {sub : Path} (hsub : Path.isAbsolute sub = false) {n : Nat} (h : n ≠ 0) :
    Path.join (slashPath n) sub = slashPath n ++ sub := by
  obtain ⟨n, rfl⟩ := Nat.exists_eq_succ_of_ne_zero h
  have hend : (slashPath (n + 1)).getLast? = some '/' := by
    rw [slashPath, List.replicate_succ', ← List.cons_append, List.getLast?_concat]
  rw [Path.join, hsub, hend]
  simp

/-- Nothing is packed if the path to the folder is so long that the path to its file is too long. -/
theorem not_packs_isBelow :
    smallFolder.IsSound ∧ IsBelow smallFolder (slashPath 4094) ["a".toList] [97] ∧
      ¬ Packs smallFolder (slashPath 4094) (IsBelow smallFolder (slashPath 4094)) := by
  have hsound : smallFolder.IsSound := by decide
  have hbelow : IsBelow smallFolder (slashPath 4094) ["a".toList] [97] :=
    ⟨_, locate_slashPath (by decide) (by decide) (by decide), by decide, .here (by decide)⟩
  refine ⟨hsound, hbelow, fun ⟨files, hpack, _, hmem, _⟩ => ?_⟩
  obtain ⟨files', hpack', -, hmem', -⟩ := packs hsound (slashPath 4094)
  have hkey : (key ["a".toList], Base64.encode [97]) ∈ pack smallFolder (slashPath 4094) := by
    rw [hpack]
    exact List.mem_map_of_mem ((hmem _ _).mpr hbelow)
  rw [hpack'] at hkey
  obtain ⟨file, hfile, heq⟩ := List.mem_map.mp hkey
  obtain ⟨-, -, -, -, -, hshort⟩ := (hmem' file.1 file.2).mp hfile
  rw [(Prod.mk.inj heq).1, join_slashPath (by decide) (by decide),
    Text.byteLength_append, byteLength_slashPath] at hshort
  exact absurd hshort (by decide)

end AmdBundle.Folder
