import AmdBundle.Proofs.FileTree.Walk

/-!
# What writing a file changes

A file is written where its path leads, links followed. Nothing else in the tree changes, so a path
that leads to another place leads there as before, and a path that leads nowhere may now lead to the
new file.

* `find?_set` : what stands in a tree that was changed at one location;
* `TakesFile` : a file can be put there, and no walk goes on behind it; `takesFile_of_place` : that is
  where files are written;
* `walk_set_of_ok`, `eq_or_walk_of_walk_set` : walks before and after;
* `readBytes_of_name` : a file of the root folder;
* `contentOf_of_writeFile` : what a file holds after it was written; `readBytes_writeFile` : what is
  read then, along any path; `textOf_of_writeFile`, `readText_writeFile` : the same for texts.
-/

set_option autoImplicit false

namespace AmdBundle.FileTree

/-! ## Entries -/

theorem lookup_put (key loc : Location) (entry : Entry) (entries : List (Location × Entry)) :
    lookup key (put loc entry entries) = if key = loc then some entry else lookup key entries := by
  induction entries with
  | nil => simp [put, lookup, eq_comm]
  | cons item entries ih =>
    obtain ⟨other, old⟩ := item
    rw [put]
    split
    · next hother =>
      subst hother
      by_cases hkey : key = other
      · simp [lookup, hkey]
      · simp [lookup, hkey, Ne.symm hkey]
    · next hother =>
      by_cases hkey : other = key
      · subst hkey
        simp [lookup, hother]
      · rw [lookup, if_neg hkey, ih, lookup, if_neg hkey]

theorem find?_set {fs : FileTree} {loc : Location} (hloc : loc ≠ []) (key : Location)
    (entry : Entry) :
    (fs.set loc entry).find? key = if key = loc then some entry else fs.find? key := by
  by_cases hkey : key = []
  · subst hkey
    simp [find?, Ne.symm hloc]
  · simp [find?, hkey, set, lookup_put]

/-! ## Where a file can be put -/

/-- A file can be put there: nothing stands there, or a file does. -/
structure TakesFile (fs : FileTree) (loc : Location) : Prop where
  notRoot : loc ≠ []
  notFolder : fs.find? loc ≠ some .folder
  notLink : ∀ target, fs.find? loc ≠ some (.link target)

theorem takesFile_of_place {fs : FileTree} {links : Nat} {base loc : Location} {names : List Text}
    (h : fs.place links base names = .ok loc) : fs.TakesFile loc := by
  fun_induction place fs links base names with
  | case1 => cases h
  | case2 => cases h
  | case3 _ _ _ _ _ _ ih => exact ih h
  | case4 _ _ _ _ _ ih => exact ih h
  | case5 => cases h
  | case6 => cases h
  | case7 _ _ _ _ _ _ _ _ _ hfind =>
    obtain rfl := Except.ok.inj h
    exact ⟨by simp, by simp [hfind], by simp [hfind]⟩
  | case8 => cases h
  | case9 => cases h
  | case10 _ _ _ _ _ _ _ _ _ _ _ ih => exact ih h
  | case11 _ _ _ _ _ _ _ _ _ _ hfind =>
    obtain rfl := Except.ok.inj h
    exact ⟨by simp, by simp [hfind], by simp [hfind]⟩
  | case12 _ _ _ _ _ _ _ _ _ _ _ _ ih => exact ih h
  | case13 _ _ _ _ _ _ _ _ _ _ ih => exact ih h

section
variable {fs : FileTree} {loc : Location} (hloc : fs.TakesFile loc) (content : Bytes)
include hloc

theorem find?_set_file_of_link {key : Location} {target : Path} :
    (fs.set loc (.file content)).find? key = some (.link target) ↔
      fs.find? key = some (.link target) := by
  rw [find?_set hloc.notRoot]
  split
  · next hkey => simp [hkey, hloc.notLink target]
  · exact Iff.rfl

theorem isFolderAt_set_file (key : Location) :
    (fs.set loc (.file content)).isFolderAt key = fs.isFolderAt key := by
  rw [isFolderAt, isFolderAt, find?_set hloc.notRoot]
  split
  · next hkey => simp [hkey, hloc.notFolder]
  · rfl

/-! ## Walks -/

/-- Every walk leads on where it led. -/
theorem walk_set_of_ok {links : Nat} {base found : Location} {names : List Text}
    (h : fs.walk links base names = .ok found) :
    (fs.set loc (.file content)).walk links base names = .ok found := by
  fun_induction walk fs links base names with
  | case1 => rwa [walk]
  | case2 => cases h
  | case3 _ _ _ _ hfolder hidle ih =>
    rw [walk, isFolderAt_set_file hloc, if_neg hfolder, if_pos hidle, ih h]
  | case4 _ _ _ hfolder hidle ih =>
    rw [walk, isFolderAt_set_file hloc, if_neg hfolder, if_neg hidle, if_pos rfl, ih h]
  | case5 => cases h
  | case6 => cases h
  | case7 => cases h
  | case8 base name _ hfolder hidle hup hlength target hfind _ ih =>
    rw [walk, isFolderAt_set_file hloc, if_neg hfolder, if_neg hidle, if_neg hup, if_neg hlength,
      (find?_set_file_of_link hloc content).mpr hfind]
    exact ih h
  | case9 _ base name _ hfolder hidle hup hlength entry hlink hfind ih =>
    obtain ⟨entry', hfind', hlink'⟩ : ∃ entry', (fs.set loc (.file content)).find? (base ++ [name]) =
        some entry' ∧ ∀ target, entry' ≠ .link target := by
      rw [find?_set hloc.notRoot]
      split
      · exact ⟨_, rfl, by simp⟩
      · exact ⟨entry, hfind, fun target heq => hlink target heq⟩
    rw [walk, isFolderAt_set_file hloc, if_neg hfolder, if_neg hidle, if_neg hup, if_neg hlength,
      hfind']
    cases entry' with
    | link target => exact absurd rfl (hlink' target)
    | file => exact ih h
    | folder => exact ih h


/-- A walk that leads somewhere now led there before, unless it leads to the new file. -/
theorem eq_or_walk_of_walk_set {links : Nat} {base found : Location} {names : List Text}
    (h : (fs.set loc (.file content)).walk links base names = .ok found) :
    found = loc ∨ fs.walk links base names = .ok found := by
  fun_induction walk (fs.set loc (.file content)) links base names with
  | case1 => exact .inr (by rwa [walk])
  | case2 => cases h
  | case3 _ _ _ _ hfolder hidle ih =>
    rw [isFolderAt_set_file hloc] at hfolder
    rw [walk, if_neg hfolder, if_pos hidle]
    exact ih h
  | case4 _ _ _ hfolder hidle ih =>
    rw [isFolderAt_set_file hloc] at hfolder
    rw [walk, if_neg hfolder, if_neg hidle, if_pos rfl]
    exact ih h
  | case5 => cases h
  | case6 => cases h
  | case7 => cases h
  | case8 _ _ _ hfolder hidle hup hlength _ hfind _ ih =>
    rw [isFolderAt_set_file hloc] at hfolder
    rw [walk, if_neg hfolder, if_neg hidle, if_neg hup, if_neg hlength,
      (find?_set_file_of_link hloc content).mp hfind]
    exact ih h
  | case9 links base name rest hfolder hidle hup hlength entry hlink hfind ih =>
    by_cases hhere : base ++ [name] = loc
    · -- Nothing can be reached behind a file.
      left
      rw [hhere] at h
      cases rest with
      | nil =>
        rw [walk] at h
        exact (Except.ok.inj h).symm
      | cons next rest =>
        have hfile : (fs.set loc (.file content)).isFolderAt loc = false := by
          rw [isFolderAt, find?_set hloc.notRoot, if_pos rfl]
          rfl
        rw [walk, hfile] at h
        cases h
    · rw [isFolderAt_set_file hloc] at hfolder
      rw [find?_set hloc.notRoot, if_neg hhere] at hfind
      rw [walk, if_neg hfolder, if_neg hidle, if_neg hup, if_neg hlength, hfind]
      cases entry with
      | link target => exact absurd rfl (hlink target)
      | file => exact ih h
      | folder => exact ih h

/-- A file is found where it was written. -/
theorem walk_set_of_place {links : Nat} {base : Location} {names : List Text}
    (h : fs.place links base names = .ok loc) :
    (fs.set loc (.file content)).walk links base names = .ok loc := by
  have hnew : (fs.set loc (.file content)).find? loc = some (.file content) := by
    rw [find?_set hloc.notRoot, if_pos rfl]
  fun_induction place fs links base names with
  | case1 => cases h
  | case2 => cases h
  | case3 _ _ _ _ hfolder hidle ih =>
    rw [walk, isFolderAt_set_file hloc, if_neg hfolder, if_pos hidle]
    exact ih h
  | case4 _ _ _ hfolder hidle ih =>
    rw [walk, isFolderAt_set_file hloc, if_neg hfolder, if_neg hidle, if_pos rfl]
    exact ih h
  | case5 => cases h
  | case6 => cases h
  | case7 _ base name rest hfolder hidle hup hlength _ _ hrest =>
    obtain rfl := Except.ok.inj h
    obtain rfl := List.isEmpty_iff.mp hrest
    rw [walk, isFolderAt_set_file hloc, if_neg hfolder, if_neg hidle, if_neg hup, if_neg hlength,
      hnew, walk]
  | case8 => cases h
  | case9 => cases h
  | case10 _ _ _ hfolder hidle hup hlength _ _ hfind _ ih =>
    rw [walk, isFolderAt_set_file hloc, if_neg hfolder, if_neg hidle, if_neg hup, if_neg hlength,
      (find?_set_file_of_link hloc content).mpr hfind]
    exact ih h
  | case11 _ base name rest hfolder hidle hup hlength _ _ _ hrest =>
    obtain rfl := Except.ok.inj h
    obtain rfl := List.isEmpty_iff.mp hrest
    rw [walk, isFolderAt_set_file hloc, if_neg hfolder, if_neg hidle, if_neg hup, if_neg hlength,
      hnew, walk]
  | case12 _ base name rest _ _ _ _ _ _ hfind hrest _ =>
    -- No file is placed behind a file.
    cases rest with
    | nil => exact absurd rfl hrest
    | cons next rest =>
      rw [place, isFolderAt, hfind] at h
      cases h
  | case13 _ base name _ hfolder hidle hup hlength _ hfind ih =>
    have hother : base ++ [name] ≠ loc := fun hhere => hloc.notFolder (hhere ▸ hfind)
    rw [walk, isFolderAt_set_file hloc, if_neg hfolder, if_neg hidle, if_neg hup, if_neg hlength,
      find?_set hloc.notRoot, if_neg hother, hfind]
    exact ih h

theorem locate_set_of_ok {p : Path} {found : Location} (h : fs.locate p = .ok found) :
    (fs.set loc (.file content)).locate p = .ok found := by
  unfold locate at h ⊢
  split at h
  · cases h
  · exact walk_set_of_ok hloc content h

theorem eq_or_locate_of_locate_set {p : Path} {found : Location}
    (h : (fs.set loc (.file content)).locate p = .ok found) :
    found = loc ∨ fs.locate p = .ok found := by
  unfold locate at h ⊢
  split at h
  · cases h
  · exact eq_or_walk_of_walk_set hloc content h

theorem locate_set_of_placeOf {p : Path} (h : fs.placeOf p = .ok loc) :
    (fs.set loc (.file content)).locate p = .ok loc := by
  unfold placeOf at h
  unfold locate
  split at h
  · cases h
  · exact walk_set_of_place hloc content h

/-! ## Reading -/

theorem contentOf_set_of_placeOf {p : Path} (h : fs.placeOf p = .ok loc) :
    (fs.set loc (.file content)).contentOf p = .ok content := by
  have hfind : (fs.set loc (.file content)).find? loc = some (.file content) := by
    rw [find?_set hloc.notRoot, if_pos rfl]
  exact contentOf_eq_ok_iff.mpr ⟨loc, locate_set_of_placeOf hloc content h, hfind⟩

end

/-- A file of the root folder is read along its name. -/
theorem readBytes_of_name {fs : FileTree} {p : Path} (name : Text) {content : Bytes}
    (hrefused : refused? p = none) (hstart : fs.startOf p = []) (hnames : Path.names p = [name])
    (hname : Path.IsName name) (hshort : Text.byteLength name ≤ nameLimit)
    (hcan : fs.canRead [name] = true) (hfind : fs.find? [name] = some (.file content)) :
    fs.readBytes p = .ok content := by
  have hroot : fs.isFolderAt [] = true := by simp [isFolderAt, find?]
  have hlocate : fs.locate p = .ok [name] := by
    rw [locate, hrefused]
    show fs.walk linkLimit (fs.startOf p) (Path.names p) = .ok [name]
    rw [hstart, hnames, walk_cons hroot hname hshort hfind (fun target h => by cases h), walk]
    rfl
  exact readBytes_eq_ok_iff.mpr ⟨[name], hlocate, hcan, hfind⟩

/-- What is read along any path is what was read before, or what was written. -/
theorem readBytes_set_file {fs : FileTree} {loc : Location} (hloc : fs.TakesFile loc)
    (content : Bytes) (p : Path) :
    ((fs.set loc (.file content)).readBytes p).toOption = (fs.readBytes p).toOption ∨
      (fs.set loc (.file content)).readBytes p = .ok content := by
  cases hafter : (fs.set loc (.file content)).readBytes p with
  | ok bytes =>
    obtain ⟨found, hfound, hcan, hfind⟩ := readBytes_eq_ok_iff.mp hafter
    rw [find?_set hloc.notRoot] at hfind
    split at hfind
    · next hhere =>
      obtain ⟨⟩ := hfind
      exact .inr rfl
    · next hother =>
      have hbefore := (eq_or_locate_of_locate_set hloc content hfound).resolve_left hother
      exact .inl (by rw [readBytes_eq_ok_iff.mpr ⟨found, hbefore, hcan, hfind⟩])
  | error fault =>
    left
    cases hbefore : fs.readBytes p with
    | error => rfl
    | ok bytes =>
      obtain ⟨found, hfound, hcan, hfind⟩ := readBytes_eq_ok_iff.mp hbefore
      obtain ⟨bytes', hfind'⟩ : ∃ bytes', (fs.set loc (.file content)).find? found =
          some (.file bytes') := by
        rw [find?_set hloc.notRoot]
        split
        · exact ⟨_, rfl⟩
        · exact ⟨_, hfind⟩
      have hread := readBytes_eq_ok_iff.mpr
        ⟨found, locate_set_of_ok hloc content hfound, hcan, hfind'⟩
      cases hafter.symm.trans hread

/-! ## Writing -/

theorem writeFile_eq_ok_iff {fs written : FileTree} {p : Path} {content : Bytes} :
    fs.writeFile p content = .ok written ↔
      ∃ loc, fs.placeOf p = .ok loc ∧ written = fs.set loc (.file content) := by
  rw [writeFile, Outcome.bind_eq_ok_iff]
  simp only [Except.ok.injEq, eq_comm]

theorem takesFile_of_placeOf {fs : FileTree} {p : Path} {loc : Location}
    (h : fs.placeOf p = .ok loc) : fs.TakesFile loc := by
  unfold placeOf at h
  split at h
  · cases h
  · exact takesFile_of_place h

/-- The file of a path holds what was written along it. -/
theorem contentOf_of_writeFile {fs written : FileTree} {p : Path} {content : Bytes}
    (h : fs.writeFile p content = .ok written) : written.contentOf p = .ok content := by
  obtain ⟨loc, hloc, rfl⟩ := writeFile_eq_ok_iff.mp h
  exact contentOf_set_of_placeOf (takesFile_of_placeOf hloc) content hloc

/-- **What writing a file changes.** Along every path the same is read as before, or what was
written. -/
theorem readBytes_writeFile {fs written : FileTree} {p : Path} {content : Bytes}
    (h : fs.writeFile p content = .ok written) (q : Path) :
    (written.readBytes q).toOption = (fs.readBytes q).toOption ∨
      written.readBytes q = .ok content := by
  obtain ⟨loc, hloc, rfl⟩ := writeFile_eq_ok_iff.mp h
  exact readBytes_set_file (takesFile_of_placeOf hloc) content q

/-! ## Texts -/

theorem toOption_readText (fs : FileTree) (p : Path) :
    (fs.readText p).toOption = (fs.readBytes p).toOption.bind Text.decode := by
  rw [readText]
  cases fs.readBytes p with
  | error fault => rfl
  | ok content =>
    rw [Outcome.bind_ok, asText]
    cases hdecode : Text.decode content with
    | none => simp [Except.toOption, hdecode]
    | some text => simp [Except.toOption, hdecode]

@[simp] theorem asText_encode (text : Text) : asText (Text.encode text) = .ok text :=
  asText_eq_ok_iff.mpr (Text.decode_encode text)

theorem textOf_of_writeFile {fs written : FileTree} {p : Path} {text : Text}
    (h : fs.writeFile p (Text.encode text) = .ok written) : written.textOf p = .ok text := by
  rw [textOf, contentOf_of_writeFile h, Outcome.bind_ok, asText_encode]

theorem readText_writeFile {fs written : FileTree} {p : Path} {text : Text}
    (h : fs.writeFile p (Text.encode text) = .ok written) (q : Path) :
    (written.readText q).toOption = (fs.readText q).toOption ∨
      (written.readText q).toOption = some text := by
  rw [toOption_readText, toOption_readText]
  rcases readBytes_writeFile h q with hsame | hnew
  · exact .inl (by rw [hsame])
  · exact .inr (by simp [hnew, Except.toOption, Text.decode_encode])

/-- What was written to a file that can be read is read there. -/
theorem readText_of_writeFile {fs written : FileTree} {p : Path} {old text : Text}
    (hread : fs.readText p = .ok old) (h : fs.writeFile p (Text.encode text) = .ok written) :
    written.readText p = .ok text := by
  obtain ⟨now, hnow⟩ : ∃ now, written.readText p = .ok now := by
    rcases readText_writeFile h p with hsame | hnew
    · rw [hread] at hsame
      exact ⟨old, Outcome.toOption_eq_some_iff.mp hsame⟩
    · exact ⟨text, Outcome.toOption_eq_some_iff.mp hnew⟩
  rw [hnow, ← Except.ok.inj ((textOf_of_readText hnow).symm.trans (textOf_of_writeFile h))]

end AmdBundle.FileTree
