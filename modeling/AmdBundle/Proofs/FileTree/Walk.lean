import AmdBundle.FileTree.Access
import AmdBundle.Proofs.Outcome
import AmdBundle.Proofs.Path.Clean
import Mathlib.Data.List.Basic
import Mathlib.Data.List.Perm.Subperm

/-!
# Walks

A walk along names and more names is a walk along the first and one along the others. Where no entry
is a link, a clean path is known by the place that it leads to.

* `walk_append`, `walk_append_of_forall` : the two walks of one;
* `locate_pathOf` : the names of a clean path are the location that it leads to;
* `length_le_entries` : there are no more clean paths to files than entries.
-/

set_option autoImplicit false

namespace AmdBundle.FileTree
open AmdBundle.Path

def HasNoLinks (fs : FileTree) : Prop :=
  ∀ item ∈ fs.entries, ∀ target, item.2 ≠ .link target

variable {fs : FileTree}

/-! ## Entries -/

theorem mem_of_lookup {loc : Location} {entry : Entry} {entries : List (Location × Entry)}
    (h : lookup loc entries = some entry) : (loc, entry) ∈ entries := by
  induction entries with
  | nil => cases h
  | cons item entries ih =>
    rw [lookup] at h
    split at h
    · next hkey =>
      obtain rfl := Option.some.inj h
      rw [← hkey]
      exact List.mem_cons_self
    · exact List.mem_cons_of_mem _ (ih h)

theorem mem_entries_of_find? {loc : Location} {entry : Entry} (hloc : loc ≠ [])
    (h : fs.find? loc = some entry) : (loc, entry) ∈ fs.entries := by
  rw [find?, if_neg hloc] at h
  exact mem_of_lookup h

theorem find?_ne_link (hlinks : fs.HasNoLinks) (loc : Location) (target : Path) :
    fs.find? loc ≠ some (.link target) := by
  intro h
  by_cases hloc : loc = []
  · rw [find?, if_pos hloc] at h
    cases h
  · exact hlinks _ (mem_entries_of_find? hloc h) target rfl

/-! ## Walks along names and more names -/

section
variable {links : Nat} {loc found : Location}

/-- A walk that arrives also arrives if it may follow more links. -/
theorem walk_of_le {links' : Nat} {names : List Text} (hle : links ≤ links')
    (h : fs.walk links loc names = .ok found) : fs.walk links' loc names = .ok found := by
  fun_induction walk fs links loc names generalizing links' with
  | case1 => rwa [walk]
  | case2 => cases h
  | case3 _ _ _ _ hfolder hidle ih =>
    rw [walk, if_neg hfolder, if_pos hidle]
    exact ih hle h
  | case4 _ _ _ hfolder hidle ih =>
    rw [walk, if_neg hfolder, if_neg hidle, if_pos rfl]
    exact ih hle h
  | case5 => cases h
  | case6 => cases h
  | case7 => cases h
  | case8 _ _ _ hfolder hidle hup hlength _ hfind _ ih =>
    obtain ⟨links', rfl⟩ := Nat.exists_eq_succ_of_ne_zero (Nat.ne_zero_of_lt hle)
    rw [walk, if_neg hfolder, if_neg hidle, if_neg hup, if_neg hlength, hfind]
    exact ih (Nat.le_of_succ_le_succ hle) h
  | case9 _ _ _ _ hfolder hidle hup hlength entry hlink hfind ih =>
    rw [walk, if_neg hfolder, if_neg hidle, if_neg hup, if_neg hlength, hfind]
    cases entry with
    | link target => exact absurd rfl (hlink target)
    | file content => exact ih hle h
    | folder => exact ih hle h

theorem walk_append {names more : List Text} (h : fs.walk links loc (names ++ more) = .ok found) :
    ∃ mid, fs.walk links loc names = .ok mid ∧ fs.walk links mid more = .ok found := by
  fun_induction walk fs links loc names with
  | case1 _ loc => exact ⟨loc, rfl, h⟩
  | case2 _ _ _ _ hfolder =>
    rw [List.cons_append, walk, if_pos hfolder] at h
    cases h
  | case3 _ _ _ _ hfolder hidle ih =>
    rw [List.cons_append, walk, if_neg hfolder, if_pos hidle] at h
    exact ih h
  | case4 _ _ _ hfolder hidle ih =>
    rw [List.cons_append, walk, if_neg hfolder, if_neg hidle, if_pos rfl] at h
    exact ih h
  | case5 _ _ _ _ hfolder hidle hup hlength =>
    rw [List.cons_append, walk, if_neg hfolder, if_neg hidle, if_neg hup, if_pos hlength] at h
    cases h
  | case6 _ _ _ _ hfolder hidle hup hlength hfind =>
    rw [List.cons_append, walk, if_neg hfolder, if_neg hidle, if_neg hup, if_neg hlength, hfind] at h
    cases h
  | case7 _ _ _ hfolder hidle hup hlength _ hfind =>
    rw [List.cons_append, walk, if_neg hfolder, if_neg hidle, if_neg hup, if_neg hlength, hfind] at h
    cases h
  | case8 _ _ _ hfolder hidle hup hlength _ hfind _ ih =>
    rw [List.cons_append, walk, if_neg hfolder, if_neg hidle, if_neg hup, if_neg hlength, hfind] at h
    obtain ⟨mid, hmid, hmore⟩ := ih (by rwa [List.append_assoc])
    exact ⟨mid, hmid, walk_of_le (Nat.le_succ _) hmore⟩
  | case9 _ _ _ _ hfolder hidle hup hlength entry hlink hfind ih =>
    rw [List.cons_append, walk, if_neg hfolder, if_neg hidle, if_neg hup, if_neg hlength, hfind] at h
    cases entry with
    | link target => exact absurd rfl (hlink target)
    | file content => exact ih h
    | folder => exact ih h

/-- A walk that goes on without links behind the place that it led to. -/
theorem walk_append_of_forall {mid : Location} {names more : List Text}
    (h : fs.walk links loc names = .ok mid) (hmore : ∀ links, fs.walk links mid more = .ok found) :
    fs.walk links loc (names ++ more) = .ok found := by
  fun_induction walk fs links loc names with
  | case1 =>
    obtain rfl := Except.ok.inj h
    exact hmore _
  | case2 => cases h
  | case3 _ _ _ _ hfolder hidle ih =>
    rw [List.cons_append, walk, if_neg hfolder, if_pos hidle]
    exact ih h
  | case4 _ _ _ hfolder hidle ih =>
    rw [List.cons_append, walk, if_neg hfolder, if_neg hidle, if_pos rfl]
    exact ih h
  | case5 => cases h
  | case6 => cases h
  | case7 => cases h
  | case8 _ _ _ hfolder hidle hup hlength _ hfind _ ih =>
    rw [List.cons_append, walk, if_neg hfolder, if_neg hidle, if_neg hup, if_neg hlength, hfind]
    simpa only [List.append_assoc] using ih h
  | case9 _ _ _ _ hfolder hidle hup hlength entry hlink hfind ih =>
    rw [List.cons_append, walk, if_neg hfolder, if_neg hidle, if_neg hup, if_neg hlength, hfind]
    cases entry with
    | link target => exact absurd rfl (hlink target)
    | file content => exact ih h
    | folder => exact ih h

end

/-! ## Walks without links -/

theorem walk_of_isName (hlinks : fs.HasNoLinks) {links : Nat} {loc found : Location}
    {parts : List Text} (hparts : ∀ part ∈ parts, IsName part)
    (h : fs.walk links loc parts = .ok found) : found = loc ++ parts := by
  induction parts generalizing loc with
  | nil =>
    rw [walk] at h
    simpa using (Except.ok.inj h).symm
  | cons part parts ih =>
    obtain ⟨hpart, hparts⟩ := List.forall_mem_cons.mp hparts
    rw [walk] at h
    split at h
    · cases h
    · rw [if_neg (by simp [hpart.notIdle]), if_neg hpart.notUp] at h
      split at h
      · cases h
      · split at h
        · cases h
        · next target hfind => exact absurd hfind (find?_ne_link hlinks _ target)
        · have := ih hparts h
          rwa [List.append_assoc] at this

/-- One name of a walk, of an entry of the folder that is no link. -/
theorem walk_cons {links : Nat} {loc : Location} {name : Text} {entry : Entry}
    (hfolder : fs.isFolderAt loc = true) (hname : IsName name)
    (hshort : Text.byteLength name ≤ nameLimit) (hfind : fs.find? (loc ++ [name]) = some entry)
    (hentry : ∀ target, entry ≠ .link target) (rest : List Text) :
    fs.walk links loc (name :: rest) = fs.walk links (loc ++ [name]) rest := by
  rw [walk, hfolder, if_neg (by simp), if_neg (by simp [hname.notIdle]), if_neg hname.notUp,
    if_neg (Nat.not_lt.mpr hshort), hfind]
  cases entry with
  | link target => exact absurd rfl (hentry target)
  | file content => rfl
  | folder => rfl

/-- An idle name of a walk. -/
theorem walk_idle {links : Nat} {loc : Location} {name : Text} {rest : List Text}
    (hfolder : fs.isFolderAt loc = true) (hidle : isIdle name = true) :
    fs.walk links loc (name :: rest) = fs.walk links loc rest := by
  rw [walk, hfolder, if_neg (by simp), if_pos hidle]

/-- Idle names lead nowhere. -/
theorem eq_of_walk_idles {links : Nat} {loc found : Location} {names : List Text}
    (hnames : ∀ name ∈ names, isIdle name = true) (h : fs.walk links loc names = .ok found) :
    found = loc := by
  induction names with
  | nil =>
    rw [walk] at h
    exact (Except.ok.inj h).symm
  | cons name names ih =>
    obtain ⟨hname, hnames⟩ := List.forall_mem_cons.mp hnames
    rw [walk] at h
    split at h
    · cases h
    · exact ih hnames h

/-- The root is reached along one idle name. -/
theorem walk_idle_root (fs : FileTree) (links : Nat) : fs.walk links [] [[]] = .ok [] := by
  have hroot : fs.isFolderAt [] = true := by simp [isFolderAt, find?]
  rw [walk_idle hroot rfl, walk]

/-- A clean path leads to the place of its names. -/
theorem walk_names_pathOf (hlinks : fs.HasNoLinks) {links : Nat} {found : Location}
    {parts : List Text} (hparts : ∀ part ∈ parts, IsName part)
    (h : fs.walk links [] (names (pathOf parts)) = .ok found) : found = parts := by
  rw [names_pathOf hparts] at h
  split at h
  · next hnil =>
    rw [walk_idle_root] at h
    rw [hnil]
    exact (Except.ok.inj h).symm
  · exact walk_of_isName hlinks hparts h

theorem locate_pathOf (hlinks : fs.HasNoLinks) {found : Location} {parts : List Text}
    (hparts : ∀ part ∈ parts, IsName part) (h : fs.locate (pathOf parts) = .ok found) :
    found = parts := by
  unfold locate at h
  split at h
  · cases h
  · exact walk_names_pathOf hlinks hparts h

/-! ## Files -/

theorem entryAt?_eq_ok {p : Path} {entry : Entry} (h : fs.entryAt? p = .ok entry) :
    ∃ loc, fs.locate p = .ok loc ∧ fs.find? loc = some entry := by
  obtain ⟨loc, hloc, h⟩ := Outcome.bind_eq_ok_iff.mp h
  split at h
  · next hfind => exact ⟨loc, hloc, Except.ok.inj h ▸ hfind⟩
  · cases h

theorem contentOf_eq_ok_iff {p : Path} {content : Bytes} :
    fs.contentOf p = .ok content ↔
      ∃ loc, fs.locate p = .ok loc ∧ fs.find? loc = some (.file content) := by
  constructor
  · intro h
    obtain ⟨entry, hentry, h⟩ := Outcome.bind_eq_ok_iff.mp h
    obtain ⟨loc, hloc, hfind⟩ := entryAt?_eq_ok hentry
    split at h
    · obtain rfl := Except.ok.inj h
      exact ⟨loc, hloc, hfind⟩
    · cases h
  · rintro ⟨loc, hloc, hfind⟩
    simp [contentOf, entryAt?, hloc, hfind]

theorem readBytes_eq_ok_iff {p : Path} {content : Bytes} :
    fs.readBytes p = .ok content ↔
      ∃ loc, fs.locate p = .ok loc ∧ fs.canRead loc = true ∧
        fs.find? loc = some (.file content) := by
  rw [readBytes, Outcome.bind_eq_ok_iff]
  constructor
  · rintro ⟨loc, hloc, h⟩
    split at h
    · next hcan =>
      obtain ⟨loc', hloc', hfind⟩ := contentOf_eq_ok_iff.mp h
      obtain rfl := Except.ok.inj (hloc.symm.trans hloc')
      exact ⟨loc, hloc, hcan, hfind⟩
    · cases h
  · rintro ⟨loc, hloc, hcan, hfind⟩
    exact ⟨loc, hloc, by rw [if_pos hcan]; exact contentOf_eq_ok_iff.mpr ⟨loc, hloc, hfind⟩⟩

/-- What can be read is what the file holds. -/
theorem contentOf_of_readBytes {p : Path} {content : Bytes} (h : fs.readBytes p = .ok content) :
    fs.contentOf p = .ok content := by
  obtain ⟨loc, hloc, -, hfind⟩ := readBytes_eq_ok_iff.mp h
  exact contentOf_eq_ok_iff.mpr ⟨loc, hloc, hfind⟩

theorem textOf_of_readText {p : Path} {text : Text} (h : fs.readText p = .ok text) :
    fs.textOf p = .ok text := by
  obtain ⟨content, hcontent, htext⟩ := Outcome.bind_eq_ok_iff.mp h
  exact Outcome.bind_eq_ok_iff.mpr ⟨content, contentOf_of_readBytes hcontent, htext⟩

theorem asText_eq_ok_iff {content : Bytes} {text : Text} :
    asText content = .ok text ↔ Text.decode content = some text := by
  unfold asText
  split
  · next hdecode => simp [hdecode]
  · next hdecode => simp [hdecode]

theorem entryAt?_of_readText {p : Path} {text : Text} (h : fs.readText p = .ok text) :
    ∃ content, fs.entryAt? p = .ok (.file content) := by
  obtain ⟨bytes, hbytes, -⟩ := Outcome.bind_eq_ok_iff.mp (textOf_of_readText h)
  obtain ⟨entry, hentry, h⟩ := Outcome.bind_eq_ok_iff.mp hbytes
  split at h
  · exact ⟨_, hentry⟩
  · cases h

theorem isFile_of_readText {p : Path} {text : Text} (h : fs.readText p = .ok text) :
    fs.isFile p = true := by
  obtain ⟨content, hentry⟩ := entryAt?_of_readText h
  rw [isFile, hentry]

/-- The root is a folder. -/
theorem ne_nil_of_readText {parts : List Text} {text : Text}
    (h : fs.readText (pathOf parts) = .ok text) : parts ≠ [] := by
  rintro rfl
  obtain ⟨content, hentry⟩ := entryAt?_of_readText h
  obtain ⟨loc, hloc, hfind⟩ := entryAt?_eq_ok hentry
  have hfine : refused? (pathOf []) = none := by decide
  rw [locate, hfine] at hloc
  replace hloc : fs.walk linkLimit [] [[]] = .ok loc := hloc
  rw [walk_idle_root] at hloc
  obtain rfl := Except.ok.inj hloc
  cases hfind

theorem mem_entries_of_readText (hlinks : fs.HasNoLinks) {parts : List Text}
    (hparts : ∀ part ∈ parts, IsName part) {text : Text}
    (h : fs.readText (pathOf parts) = .ok text) : parts ≠ [] ∧ parts ∈ fs.entries.map Prod.fst := by
  obtain ⟨content, hentry⟩ := entryAt?_of_readText h
  obtain ⟨loc, hloc, hfind⟩ := entryAt?_eq_ok hentry
  obtain rfl := locate_pathOf hlinks hparts hloc
  have hne := ne_nil_of_readText h
  exact ⟨hne, List.mem_map_of_mem (mem_entries_of_find? hne hfind)⟩

/-- Different clean paths lead to different files. -/
theorem length_le_entries (hlinks : fs.HasNoLinks) {paths : List Path} (hnodup : paths.Nodup)
    (hfiles : ∀ p ∈ paths, IsClean p ∧ ∃ text, fs.readText p = .ok text) :
    paths.length ≤ fs.entries.length := by
  have hsubset : paths ⊆ (fs.entries.map Prod.fst).map pathOf := by
    intro p hp
    obtain ⟨⟨parts, rfl, hparts⟩, text, htext⟩ := hfiles p hp
    exact List.mem_map_of_mem (mem_entries_of_readText hlinks hparts htext).2
  simpa using (List.subperm_of_subset hnodup hsubset).length_le

end AmdBundle.FileTree
