import AmdBundle.Proofs.FileTree.Links

/-!
# Files below a folder

* `IsSound` : every location is along names that folders can hold, and has one entry;
* `FileBelow` : a file, by the names that lead down to it through folders;
* `mem_children_iff` : what a folder lists is what stands directly below it;
* `FileBelow.length_le` : the way to a file is not longer than the tree has entries;
* `FileBelow.readBytes_join_eq_ok_iff` : a path to the folder and the names behind it open that
  file, unless that is not allowed or the whole path is too long;
* `SameTree` : one tree whose folders list their entries in another order, where every path leads
  to the same place.
-/

set_option autoImplicit false

namespace AmdBundle.FileTree
open AmdBundle.Path

/-- A name that a folder can hold. -/
structure CanName (name : Text) : Prop extends IsName name where
  noNul : '\x00' ∉ name
  short : Text.byteLength name ≤ nameLimit

instance (name : Text) : Decidable (CanName name) :=
  decidable_of_iff (('/' ∉ name ∧ isIdle name = false ∧ name ≠ up) ∧
      '\x00' ∉ name ∧ Text.byteLength name ≤ nameLimit)
    ⟨fun ⟨⟨hslash, hidle, hup⟩, hnul, hshort⟩ => ⟨⟨hslash, hidle, hup⟩, hnul, hshort⟩,
      fun h => ⟨⟨h.noSlash, h.notIdle, h.notUp⟩, h.noNul, h.short⟩⟩

/-- Every location is along names that folders can hold, and has one entry. -/
structure IsSound (fs : FileTree) : Prop where
  nodup : (fs.entries.map Prod.fst).Nodup
  canName : ∀ item ∈ fs.entries, ∀ name ∈ item.1, CanName name

instance (fs : FileTree) : Decidable fs.IsSound :=
  decidable_of_iff ((fs.entries.map Prod.fst).Nodup ∧ ∀ item ∈ fs.entries, ∀ name ∈ item.1, CanName name)
    ⟨fun ⟨hnodup, hnames⟩ => ⟨hnodup, hnames⟩, fun h => ⟨h.nodup, h.canName⟩⟩

/-- The names lead from the location through folders down to a file with that content. -/
inductive FileBelow (fs : FileTree) : Location → List Text → Bytes → Prop
  | here {loc : Location} {name : Text} {content : Bytes}
      (hfile : fs.find? (loc ++ [name]) = some (.file content)) : FileBelow fs loc [name] content
  | deeper {loc : Location} {name : Text} {names : List Text} {content : Bytes}
      (hfolder : fs.find? (loc ++ [name]) = some .folder)
      (hbelow : FileBelow fs (loc ++ [name]) names content) : FileBelow fs loc (name :: names) content

variable {fs : FileTree} {loc found : Location} {names : List Text} {content : Bytes}

/-! ## Entries -/

theorem lookup_of_mem {entry : Entry} {entries : List (Location × Entry)}
    (hnodup : (entries.map Prod.fst).Nodup) (h : (loc, entry) ∈ entries) :
    lookup loc entries = some entry := by
  induction entries with
  | nil => cases h
  | cons item entries ih =>
    obtain ⟨hitem, hnodup⟩ := List.nodup_cons.mp hnodup
    rw [lookup]
    rcases List.mem_cons.mp h with rfl | h
    · rw [if_pos rfl]
    · have hne : item.1 ≠ loc := fun heq => hitem (heq ▸ List.mem_map_of_mem h)
      rw [if_neg hne]
      exact ih hnodup h

theorem find?_eq_some_iff (hsound : fs.IsSound) {entry : Entry} (hloc : loc ≠ []) :
    fs.find? loc = some entry ↔ (loc, entry) ∈ fs.entries := by
  refine ⟨mem_entries_of_find? hloc, fun h => ?_⟩
  rw [find?, if_neg hloc]
  exact lookup_of_mem hsound.nodup h

theorem canName_of_find? (hsound : fs.IsSound) {entry : Entry} {name : Text}
    (h : fs.find? (loc ++ [name]) = some entry) : CanName name :=
  hsound.canName _ (mem_entries_of_find? (by simp) h) name (by simp)

theorem childName?_eq_some {key : Location} {name : Text} :
    childName? loc key = some name ↔ key = loc ++ [name] := by
  unfold childName?
  constructor
  · intro h
    split at h
    · next last hprefix =>
      obtain rfl := Option.some.inj h
      exact (List.isPrefixOf?_eq_some_iff_append_eq.mp hprefix).symm
    · cases h
  · rintro rfl
    rw [List.isPrefixOf?_eq_some_iff_append_eq.mpr rfl]

/-- **What a folder lists stands directly below it.** -/
theorem mem_children_iff (hsound : fs.IsSound) {item : Text × Entry} :
    item ∈ fs.children loc ↔ fs.find? (loc ++ [item.1]) = some item.2 := by
  rw [find?_eq_some_iff hsound (by simp), children, List.mem_filterMap]
  constructor
  · rintro ⟨⟨key, entry⟩, hmem, h⟩
    obtain ⟨name, hname, rfl⟩ := Option.map_eq_some_iff.mp h
    rwa [← childName?_eq_some.mp hname]
  · intro hmem
    exact ⟨_, hmem, by rw [childName?_eq_some.mpr rfl]; rfl⟩

/-- No folder lists a name twice. -/
theorem nodup_children (hsound : fs.IsSound) (loc : Location) :
    ((fs.children loc).map Prod.fst).Nodup := by
  have hnodup := hsound.nodup
  rw [List.Nodup, List.pairwise_map] at hnodup ⊢
  refine hnodup.filterMap _ ?_
  rintro ⟨key, entry⟩ ⟨key', entry'⟩ hne item hitem item' hitem' heq
  obtain ⟨name, hname, rfl⟩ := Option.map_eq_some_iff.mp hitem
  obtain ⟨name', hname', rfl⟩ := Option.map_eq_some_iff.mp hitem'
  obtain rfl : name = name' := heq
  exact hne ((childName?_eq_some.mp hname).trans (childName?_eq_some.mp hname').symm)

/-! ## The way to a file -/

namespace FileBelow

theorem ne_nil (h : FileBelow fs loc names content) : names ≠ [] := by
  cases h <;> exact List.cons_ne_nil _ _

theorem find? (h : FileBelow fs loc names content) :
    fs.find? (loc ++ names) = some (.file content) := by
  induction h with
  | here hfile => exact hfile
  | deeper hfolder hbelow ih => rwa [List.append_cons]

theorem canName (hsound : fs.IsSound) (h : FileBelow fs loc names content) :
    ∀ name ∈ names, CanName name := by
  induction h with
  | here hfile => simpa using canName_of_find? hsound hfile
  | deeper hfolder hbelow ih =>
    exact List.forall_mem_cons.mpr ⟨canName_of_find? hsound hfolder, ih⟩

/-- Each name on the way stands for an entry of its own. -/
theorem exists_keys (h : FileBelow fs loc names content) :
    ∃ keys : List Location, keys.length = names.length ∧ keys ⊆ fs.entries.map Prod.fst ∧
      keys.Nodup ∧ ∀ key ∈ keys, loc.length < key.length := by
  induction h with
  | @here loc name content hfile =>
    refine ⟨[loc ++ [name]], rfl, ?_, by simp, by simp⟩
    simpa using ⟨_, mem_entries_of_find? (by simp) hfile⟩
  | @deeper loc name names content hfolder hbelow ih =>
    obtain ⟨keys, hlength, hsubset, hnodup, hlonger⟩ := ih
    refine ⟨(loc ++ [name]) :: keys, by simp [hlength], ?_, ?_, ?_⟩
    · exact List.cons_subset.mpr
        ⟨List.mem_map_of_mem (mem_entries_of_find? (by simp) hfolder), hsubset⟩
    · exact List.nodup_cons.mpr ⟨fun hmem => Nat.lt_irrefl _ (hlonger _ hmem), hnodup⟩
    · refine List.forall_mem_cons.mpr ⟨by simp, fun key hkey => ?_⟩
      have := hlonger key hkey
      rw [List.length_append, List.length_singleton] at this
      omega

/-- No way is longer than the tree has entries. -/
theorem length_le (h : FileBelow fs loc names content) : names.length ≤ fs.entries.length := by
  obtain ⟨keys, hlength, hsubset, hnodup, -⟩ := h.exists_keys
  rw [← hlength]
  simpa using (List.subperm_of_subset hnodup hsubset).length_le

/-- There is no link on the way, so the walk arrives however many links were followed before. -/
theorem walk (hsound : fs.IsSound) (hloc : fs.isFolderAt loc = true)
    (h : FileBelow fs loc names content) (links : Nat) :
    fs.walk links loc names = .ok (loc ++ names) := by
  induction h with
  | here hfile =>
    have hname := canName_of_find? hsound hfile
    rw [walk_cons hloc hname.toIsName hname.short hfile (by simp), FileTree.walk]
  | deeper hfolder hbelow ih =>
    have hname := canName_of_find? hsound hfolder
    rw [walk_cons hloc hname.toIsName hname.short hfolder (by simp),
      ih (by rw [isFolderAt, hfolder]; rfl), List.append_assoc]
    rfl

end FileBelow

/-! ## Paths to it -/

theorem join_cases (path : Path) {sub : Path} (hsub : isAbsolute sub = false) :
    join path sub = path ++ sub ∨ join path sub = path ++ '/' :: sub := by
  rw [join, hsub, if_neg Bool.false_ne_true]
  split
  · exact .inl rfl
  · exact .inr rfl

theorem names_append {path : Path} (hpath : path ≠ []) :
    ∃ front body, path = front ++ body ∧
      ∀ more, Path.names (path ++ more) = List.splitOn '/' (body ++ more) := by
  obtain ⟨c, rest, rfl⟩ := List.exists_cons_of_ne_nil hpath
  by_cases hc : c = '/'
  · subst hc
    exact ⟨['/'], rest, rfl, fun more => rfl⟩
  · refine ⟨[], c :: rest, rfl, fun more => ?_⟩
    rw [List.cons_append, Path.names]
    rintro _ heq
    exact hc (List.cons.inj heq).1

/-- The names of a path seen from a folder come behind those of the folder's path, where a slash at
its end begins no name. -/
theorem names_join {path sub : Path} (hpath : path ≠ []) (hsub : isAbsolute sub = false) :
    ∃ front, (Path.names path = front ∨ Path.names path = front ++ [[]]) ∧
      Path.names (join path sub) = front ++ List.splitOn '/' sub := by
  obtain ⟨front, body, hbody, hnames⟩ := names_append hpath
  have hself : Path.names path = List.splitOn '/' body := by simpa using hnames []
  by_cases hend : path.getLast? = some '/'
  · have hjoin : join path sub = path ++ sub := by simp [join, hsub, hend]
    rw [hjoin, hnames, hself]
    rcases List.eq_nil_or_concat body with rfl | ⟨body', last, rfl⟩
    · exact ⟨[], .inr (by simp), rfl⟩
    · obtain rfl : last = '/' := by simpa [hbody] using hend
      refine ⟨List.splitOn '/' body', .inr ?_, ?_⟩
      · rw [List.concat_eq_append, List.splitOn_append_cons_self, List.splitOn_nil]
      · rw [List.concat_eq_append, List.append_assoc, List.singleton_append,
          List.splitOn_append_cons_self]
  · have hjoin : join path sub = path ++ '/' :: sub := by simp [join, hsub, hend, hpath]
    rw [hjoin, hnames, hself]
    exact ⟨_, .inl rfl, List.splitOn_append_cons_self ..⟩

theorem refused?_eq_none_iff {path : Path} :
    refused? path = none ↔ path ≠ [] ∧ '\x00' ∉ path ∧ Text.byteLength path ≤ pathLimit := by
  unfold refused?
  split
  · simp_all
  · split
    · simp_all
    · split <;> simp_all

theorem refused?_join {path sub : Path} (hpath : refused? path = none) (hsub : isAbsolute sub = false)
    (hnul : '\x00' ∉ sub) (hshort : Text.byteLength (join path sub) ≤ pathLimit) :
    refused? (join path sub) = none := by
  obtain ⟨hne, hpathNul, -⟩ := refused?_eq_none_iff.mp hpath
  refine refused?_eq_none_iff.mpr ⟨?_, ?_, hshort⟩
  · rcases join_cases path hsub with hjoin | hjoin <;> simp [hjoin, hne]
  · rcases join_cases path hsub with hjoin | hjoin <;> simp [hjoin, hpathNul, hnul]

theorem startOf_join {path sub : Path} (hpath : path ≠ []) (hsub : isAbsolute sub = false) :
    fs.startOf (join path sub) = fs.startOf path := by
  obtain ⟨c, rest, rfl⟩ := List.exists_cons_of_ne_nil hpath
  rcases join_cases (c :: rest) hsub with hjoin | hjoin <;> rw [hjoin] <;> rfl

namespace FileBelow
variable {path : Path}

theorem isAbsolute_intercalate (hsound : fs.IsSound) (h : FileBelow fs loc names content) :
    isAbsolute (['/'].intercalate names) = false := by
  have hnames := h.canName hsound
  obtain ⟨name, more, rfl⟩ := List.exists_cons_of_ne_nil h.ne_nil
  have hname := (hnames name List.mem_cons_self).toIsName
  cases name with
  | nil => cases hname.notIdle
  | cons c name =>
    have hc : c ≠ '/' := by
      rintro rfl
      exact hname.noSlash List.mem_cons_self
    simp [Lists.intercalate_cons, isAbsolute, hc]

/-- A path to the folder and the names behind it lead to the file. -/
theorem locate_join (hsound : fs.IsSound) (h : FileBelow fs loc names content)
    (hpath : fs.locate path = .ok loc) (hfolder : fs.isFolderAt loc = true)
    (hshort : Text.byteLength (join path (['/'].intercalate names)) ≤ pathLimit) :
    fs.locate (join path (['/'].intercalate names)) = .ok (loc ++ names) := by
  have hsub := h.isAbsolute_intercalate hsound
  have hnames := h.canName hsound
  have hnul : '\x00' ∉ ['/'].intercalate names := fun hmem =>
    Lists.forall_mem_intercalate (P := (· ≠ '\x00')) (by simp)
      (fun name hname c hc heq => (hnames name hname).noNul (heq ▸ hc)) _ hmem rfl
  have hsplit : List.splitOn '/' (['/'].intercalate names) = names :=
    List.splitOn_intercalate '/' (fun name hname => (hnames name hname).noSlash) h.ne_nil
  rw [locate] at hpath
  split at hpath
  · cases hpath
  next hfine =>
  have hne : path ≠ [] := (refused?_eq_none_iff.mp hfine).1
  obtain ⟨front, hfront, hjoin⟩ := names_join hne hsub
  have hwalk : fs.walk linkLimit (fs.startOf path) front = .ok loc := by
    rcases hfront with hfront | hfront
    · rwa [hfront] at hpath
    · rw [hfront] at hpath
      obtain ⟨mid, hmid, hidle⟩ := walk_append hpath
      rwa [eq_of_walk_idles (by simp [isIdle]) hidle]
  rw [locate, refused?_join hfine hsub hnul hshort, startOf_join hne hsub, hjoin, hsplit]
  exact walk_append_of_forall hwalk (h.walk hsound hfolder)

/-- **A file below a folder is read behind any path to that folder, unless that is not allowed or the
whole path is too long.** -/
theorem readBytes_join_eq_ok_iff (hsound : fs.IsSound) (h : FileBelow fs loc names content)
    (hpath : fs.locate path = .ok loc) (hfolder : fs.isFolderAt loc = true) {bytes : Bytes} :
    fs.readBytes (join path (['/'].intercalate names)) = .ok bytes ↔
      bytes = content ∧ fs.canRead (loc ++ names) = true ∧
        Text.byteLength (join path (['/'].intercalate names)) ≤ pathLimit := by
  rw [readBytes_eq_ok_iff]
  constructor
  · rintro ⟨found, hfound, hcan, hfind⟩
    have hshort : Text.byteLength (join path (['/'].intercalate names)) ≤ pathLimit := by
      unfold locate at hfound
      split at hfound
      · cases hfound
      · next hfine => exact (refused?_eq_none_iff.mp hfine).2.2
    rw [h.locate_join hsound hpath hfolder hshort] at hfound
    obtain rfl := Except.ok.inj hfound
    rw [h.find?] at hfind
    cases hfind
    exact ⟨rfl, hcan, hshort⟩
  · rintro ⟨rfl, hcan, hshort⟩
    exact ⟨_, h.locate_join hsound hpath hfolder hshort, hcan, h.find?⟩

end FileBelow

/-! ## One tree, listed in another order -/

/-- The same tree, whose folders may list their entries in another order. -/
structure SameTree (fs fs' : FileTree) : Prop where
  entries : fs.entries.Perm fs'.entries
  current : fs.current = fs'.current
  canRead : ∀ loc, fs.canRead loc = fs'.canRead loc

namespace SameTree
variable {fs' : FileTree}

theorem isSound (h : SameTree fs fs') (hsound : fs.IsSound) : fs'.IsSound where
  nodup := (h.entries.map Prod.fst).nodup_iff.mp hsound.nodup
  canName item hitem := hsound.canName item (h.entries.mem_iff.mpr hitem)

theorem find? (h : SameTree fs fs') (hsound : fs.IsSound) (loc : Location) :
    fs.find? loc = fs'.find? loc := by
  by_cases hloc : loc = []
  · rw [FileTree.find?, FileTree.find?, if_pos hloc, if_pos hloc]
  · ext entry
    rw [find?_eq_some_iff hsound hloc, find?_eq_some_iff (h.isSound hsound) hloc]
    exact h.entries.mem_iff

theorem isFolderAt (h : SameTree fs fs') (hsound : fs.IsSound) (loc : Location) :
    fs.isFolderAt loc = fs'.isFolderAt loc := by
  rw [FileTree.isFolderAt, FileTree.isFolderAt, h.find? hsound]

theorem walk (h : SameTree fs fs') (hsound : fs.IsSound) (links : Nat) (loc : Location)
    (names : List Text) : fs.walk links loc names = fs'.walk links loc names := by
  fun_induction FileTree.walk fs' links loc names with
  | case1 => rw [FileTree.walk]
  | case2 _ _ _ _ hfolder => rw [FileTree.walk, h.isFolderAt hsound, if_pos hfolder]
  | case3 _ _ _ _ hfolder hidle ih =>
    rw [FileTree.walk, h.isFolderAt hsound, if_neg hfolder, if_pos hidle, ih]
  | case4 _ _ _ hfolder hidle ih =>
    rw [FileTree.walk, h.isFolderAt hsound, if_neg hfolder, if_neg hidle, if_pos rfl, ih]
  | case5 _ _ _ _ hfolder hidle hup hlength =>
    rw [FileTree.walk, h.isFolderAt hsound, if_neg hfolder, if_neg hidle, if_neg hup, if_pos hlength]
  | case6 _ _ _ _ hfolder hidle hup hlength hfind =>
    rw [FileTree.walk, h.isFolderAt hsound, if_neg hfolder, if_neg hidle, if_neg hup,
      if_neg hlength, h.find? hsound, hfind]
  | case7 _ _ _ hfolder hidle hup hlength _ hfind =>
    rw [FileTree.walk, h.isFolderAt hsound, if_neg hfolder, if_neg hidle, if_neg hup,
      if_neg hlength, h.find? hsound, hfind]
  | case8 _ _ _ hfolder hidle hup hlength _ hfind _ ih =>
    rw [FileTree.walk, h.isFolderAt hsound, if_neg hfolder, if_neg hidle, if_neg hup,
      if_neg hlength, h.find? hsound, hfind]
    exact ih
  | case9 _ _ _ _ hfolder hidle hup hlength entry hlink hfind ih =>
    rw [FileTree.walk, h.isFolderAt hsound, if_neg hfolder, if_neg hidle, if_neg hup,
      if_neg hlength, h.find? hsound, hfind]
    cases entry with
    | link target => exact absurd rfl (hlink target)
    | file content => exact ih
    | folder => exact ih

theorem locate (h : SameTree fs fs') (hsound : fs.IsSound) (path : Path) :
    fs.locate path = fs'.locate path := by
  rw [FileTree.locate, FileTree.locate]
  split
  · rfl
  · rw [startOf, startOf, h.current, h.walk hsound]

theorem fileBelow (h : SameTree fs fs') (hsound : fs.IsSound)
    (hbelow : FileBelow fs loc names content) : FileBelow fs' loc names content := by
  induction hbelow with
  | here hfile => exact .here (h.find? hsound _ ▸ hfile)
  | deeper hfolder hbelow ih => exact .deeper (h.find? hsound _ ▸ hfolder) ih

theorem symm (h : SameTree fs fs') : SameTree fs' fs where
  entries := h.entries.symm
  current := h.current.symm
  canRead loc := (h.canRead loc).symm

end SameTree

end AmdBundle.FileTree
