import AmdBundle.Proofs.FileTree.Links
import AmdBundle.Proofs.Outcome
import AmdBundle.Proofs.Stylesheet.Order
import Mathlib.Data.List.Chain

/-!
# Loading a stylesheet with its imports

* `load_eq_ok`, `load_eq_error` : what one step of `load` can do;
* `Loaded` : what holds of the sheets that were loaded, at any time; `Extends` : what loading some
  paths adds to them; `load_extends` : a whole run keeps both, and the files that are being loaded are
  the same afterwards;
* `OnChain` : a chain of imports that leads to a path; `OnChain.length_le`, `OnChain.lt_chainLimit` :
  there is a limit to its length, which depends on the links of the tree;
* `load_eq_of_bound` : with more steps than that their number makes no difference.
-/

set_option autoImplicit false

namespace AmdBundle.Stylesheet
open AmdBundle.Path (IsClean)
variable {fs : FileTree} {fuel : Nat} {l l' : Loading} {chain : List Path} {sheets : List Sheet} {p : Path}

/-! ## One step -/

theorem isLoaded_iff : isLoaded p sheets = true ↔ p ∈ sheets.map Sheet.path := by
  simp [isLoaded]

theorem load_eq_ok (h : load fs (fuel + 1) l p = .ok l') :
    (p ∈ l.resolved.map Sheet.path ∧ l' = l) ∨
      (p ∉ l.resolved.map Sheet.path ∧ p ∉ l.resolving ∧ ∃ s below, s.IsIn fs ∧ s.path = p ∧
        s.imports.foldlM (load fs fuel) ⟨l.resolving ++ [p], l.resolved⟩ = .ok below ∧
        l' = ⟨below.resolving.erase p, below.resolved ++ [s]⟩) := by
  rw [load] at h
  split at h
  · next hloaded => exact .inl ⟨isLoaded_iff.mp hloaded, (Except.ok.inj h).symm⟩
  · next hloaded =>
    split at h
    · cases h
    · next hchain =>
      obtain ⟨s, hs, h⟩ := Outcome.bind_eq_ok_iff.mp h
      obtain ⟨below, hbelow, h⟩ := Outcome.bind_eq_ok_iff.mp h
      obtain ⟨hisIn, hpath⟩ := openSheet_eq_ok_iff.mp hs
      exact .inr ⟨fun hp => hloaded (isLoaded_iff.mpr hp), by simpa using hchain, s, below, hisIn,
        hpath, hbelow, (Except.ok.inj h).symm⟩

theorem load_eq_error {e : StyleError} (h : load fs (fuel + 1) l p = .error e) :
    (p ∈ l.resolving ∧ e = .cyclic (l.resolving ++ [p])) ∨ openSheet fs p = .error e ∨
      (p ∉ l.resolving ∧ ∃ s : Sheet, s.IsIn fs ∧ s.path = p ∧
        s.imports.foldlM (load fs fuel) ⟨l.resolving ++ [p], l.resolved⟩ = .error e) := by
  rw [load] at h
  split at h
  · cases h
  · split at h
    · next hchain => exact .inl ⟨by simpa using hchain, (Except.error.inj h).symm⟩
    · next hchain =>
      rcases Outcome.bind_eq_error_iff.mp h with hopen | ⟨s, hs, h⟩
      · exact .inr (.inl hopen)
      · obtain ⟨hisIn, hpath⟩ := openSheet_eq_ok_iff.mp hs
        rcases Outcome.bind_eq_error_iff.mp h with hbelow | ⟨below, -, h⟩
        · exact .inr (.inr ⟨by simpa using hchain, s, hisIn, hpath, hbelow⟩)
        · cases h

/-! ## What a run keeps -/

/-- The sheets are those of files, each once and behind those of its imports; whatever a walk from one
of them meets is among them. -/
structure Loaded (fs : FileTree) (sheets : List Sheet) : Prop where
  isIn : ∀ s ∈ sheets, s.IsIn fs
  once : (sheets.map Sheet.path).Nodup
  behind : ∀ a s b, sheets = a ++ s :: b → ∀ q ∈ s.imports, q ∈ a.map Sheet.path
  walked : ∀ s ∈ sheets, ∃ met, Visits fs [s.path] met ∧ met ⊆ sheets.map Sheet.path

/-- The second sheets are the first ones and, behind them, those first met on a walk from some paths.
None of the new ones is that of a file that was being loaded before, and these still are. -/
structure Extends (fs : FileTree) (l : Loading) (paths : List Path) (l' : Loading) : Prop where
  resolving : l'.resolving = l.resolving
  loaded : Loaded fs l'.resolved
  walk : ∃ met, Visits fs paths met ∧
    l'.resolved.map Sheet.path = (l.resolved.map Sheet.path ++ met).eraseDups
  apart : ∀ p ∈ l'.resolved.map Sheet.path, p ∈ l.resolved.map Sheet.path ∨ p ∉ l.resolving

theorem Loaded.nil : Loaded fs [] where
  isIn := by simp
  once := by simp
  behind := by simp
  walked := by simp

theorem Loaded.concat {s : Sheet} (h : Loaded fs sheets) (hs : s.IsIn fs)
    (hnew : s.path ∉ sheets.map Sheet.path) {below : List Path} (hbelow : Visits fs s.imports below)
    (hsubset : below ⊆ sheets.map Sheet.path) : Loaded fs (sheets ++ [s]) where
  isIn := by
    intro s' hs'
    rcases List.mem_append.mp hs' with hs' | hs'
    · exact h.isIn s' hs'
    · rwa [List.mem_singleton.mp hs']
  once := by
    rw [List.map_append, List.map_singleton]
    exact Lists.nodup_append_singleton.mpr ⟨hnew, h.once⟩
  behind := by
    intro a s' b heq q hq
    rcases List.eq_nil_or_concat b with rfl | ⟨b, last, rfl⟩
    · obtain ⟨rfl, hlast⟩ := List.append_inj' heq rfl
      obtain rfl := (List.cons.inj hlast).1
      exact hsubset (hbelow.mem_iff.mpr ⟨q, hq, .refl⟩)
    · rw [List.concat_eq_append, ← List.cons_append, ← List.append_assoc] at heq
      exact h.behind a s' b (List.append_inj' heq rfl).1 q hq
  walked := by
    intro s' hs'
    rw [List.map_append]
    rcases List.mem_append.mp hs' with hs' | hs'
    · obtain ⟨met, hvisits, hmet⟩ := h.walked s' hs'
      exact ⟨met, hvisits, fun q hq => List.mem_append_left _ (hmet hq)⟩
    · obtain rfl := List.mem_singleton.mp hs'
      refine ⟨below ++ [s'.path], .cons hs hbelow .nil, List.append_subset.mpr ⟨?_, by simp⟩⟩
      exact fun q hq => List.mem_append_left _ (hsubset hq)

theorem Extends.refl (h : Loaded fs l.resolved) : Extends fs l [] l where
  resolving := rfl
  loaded := h
  walk := ⟨[], .nil, by rw [List.append_nil, Lists.eraseDups_of_nodup h.once]⟩
  apart := fun _ hp => .inl hp

theorem Extends.trans {l'' : Loading} {paths paths' : List Path} (h : Extends fs l paths l')
    (h' : Extends fs l' paths' l'') : Extends fs l (paths ++ paths') l'' where
  resolving := h'.resolving.trans h.resolving
  loaded := h'.loaded
  walk := by
    obtain ⟨met, hmet, heq⟩ := h.walk
    obtain ⟨met', hmet', heq'⟩ := h'.walk
    refine ⟨met ++ met', hmet.append hmet', ?_⟩
    rw [heq', heq, Lists.eraseDups_eraseDups_append, List.append_assoc]
  apart := fun p hp => (h'.apart p hp).elim (h.apart p) fun hout => .inr (h.resolving ▸ hout)

/-- A path that is loaded already adds nothing. -/
theorem Extends.old (h : Loaded fs l.resolved) (hp : p ∈ l.resolved.map Sheet.path) :
    Extends fs l [p] l where
  resolving := rfl
  loaded := h
  walk := by
    obtain ⟨s, hs, rfl⟩ := List.mem_map.mp hp
    obtain ⟨met, hvisits, hmet⟩ := h.walked s hs
    refine ⟨met, hvisits, ?_⟩
    rw [Lists.eraseDups_append_of_subset hmet, Lists.eraseDups_of_nodup h.once]
  apart := fun _ hp => .inl hp

/-- A new path adds what its imports add, and then its own sheet. -/
theorem Extends.new {s : Sheet} {below : Loading}
    (h : Extends fs ⟨l.resolving ++ [s.path], l.resolved⟩ s.imports below) (hs : s.IsIn fs)
    (hnew : s.path ∉ l.resolved.map Sheet.path) (hchain : s.path ∉ l.resolving) :
    Extends fs l [s.path] ⟨below.resolving.erase s.path, below.resolved ++ [s]⟩ := by
  obtain ⟨met, hmet, heq⟩ := h.walk
  -- The file is being loaded while its imports are, so it is not loaded among them.
  have hfresh : s.path ∉ below.resolved.map Sheet.path := fun hin =>
    (h.apart _ hin).elim hnew fun hout => hout (by simp)
  have hsubset : met ⊆ below.resolved.map Sheet.path := by
    intro q hq
    rw [heq, List.mem_eraseDups]
    exact List.mem_append_right _ hq
  refine ⟨?_, h.loaded.concat hs hfresh hmet hsubset, ⟨met ++ [s.path], .cons hs hmet .nil, ?_⟩, ?_⟩
  · simp only [h.resolving, List.erase_append_right _ hchain, List.erase_cons_head, List.append_nil]
  · have hout : s.path ∉ l.resolved.map Sheet.path ++ met := by
      rwa [heq, List.mem_eraseDups] at hfresh
    rw [List.map_append, List.map_singleton, ← List.append_assoc, Lists.eraseDups_concat,
      if_neg hout, heq]
  · intro p hp
    rw [List.map_append, List.map_singleton] at hp
    rcases List.mem_append.mp hp with hp | hp
    · exact (h.apart p hp).imp_right fun hout hin => hout (List.mem_append_left _ hin)
    · exact .inr (List.mem_singleton.mp hp ▸ hchain)

theorem foldlM_extends {step : Loading → Path → Except StyleError Loading}
    (hstep : ∀ {l l' p}, Loaded fs l.resolved → step l p = .ok l' → Extends fs l [p] l')
    {paths : List Path} (hl : Loaded fs l.resolved) (h : paths.foldlM step l = .ok l') :
    Extends fs l paths l' := by
  induction paths generalizing l with
  | nil => exact Except.ok.inj h ▸ .refl hl
  | cons p paths ih =>
    rw [List.foldlM_cons] at h
    obtain ⟨mid, hfirst, hmore⟩ := Outcome.bind_eq_ok_iff.mp h
    have hmid := hstep hl hfirst
    exact hmid.trans (ih hmid.loaded hmore)

theorem load_extends (hl : Loaded fs l.resolved) (h : load fs fuel l p = .ok l') :
    Extends fs l [p] l' := by
  induction fuel generalizing l l' p with
  | zero => cases h
  | succ fuel ih =>
    rcases load_eq_ok h with ⟨hp, rfl⟩ | ⟨hp, hchain, s, below, hs, rfl, hbelow, rfl⟩
    · exact .old hl hp
    · have hextends : Extends fs ⟨l.resolving ++ [s.path], l.resolved⟩ s.imports below :=
        foldlM_extends ih hl hbelow
      exact hextends.new hs hp hchain

/-- The sheets are in order, and these files are being loaded. -/
def Loading.IsAt (fs : FileTree) (chain : List Path) (l : Loading) : Prop :=
  Loaded fs l.resolved ∧ l.resolving = chain

theorem Loading.isAt_start : Loading.start.IsAt fs [] :=
  ⟨.nil, rfl⟩

/-- One more file is being loaded. -/
theorem Loading.IsAt.begun (h : l.IsAt fs chain) (p : Path) :
    Loading.IsAt fs (chain ++ [p]) ⟨l.resolving ++ [p], l.resolved⟩ :=
  ⟨h.1, by rw [h.2]⟩

theorem Loading.IsAt.load (h : l.IsAt fs chain) (hload : load fs fuel l p = .ok l') :
    l'.IsAt fs chain := by
  have hextends := load_extends h.1 hload
  exact ⟨hextends.loaded, hextends.resolving.trans h.2⟩

/-! ## Chains of imports -/

/-- Every file of the chain imports the next one, and the last one the path; all are different. -/
structure OnChain (fs : FileTree) (chain : List Path) (p : Path) : Prop where
  linked : (chain ++ [p]).IsChain (Imports fs)
  once : chain.Nodup
  readable : ∀ q ∈ chain, Readable fs q
  clean : ∀ q ∈ chain ++ [p], IsClean q

theorem OnChain.root (h : IsClean p) : OnChain fs [] p where
  linked := List.isChain_singleton p
  once := List.nodup_nil
  readable := by simp
  clean := by simpa using h

theorem isClean_of_imports {s : Sheet} (hs : s.IsIn fs) (hclean : IsClean s.path) {q : Path}
    (hq : q ∈ s.imports) : IsClean q := by
  obtain ⟨text, targets, htext, -, himports⟩ := hs
  obtain ⟨target, -, rfl⟩ := List.mem_map.mp (himports ▸ hq)
  obtain ⟨parts, hpath, hparts⟩ := hclean
  rw [hpath] at htext ⊢
  have hne := FileTree.ne_nil_of_readText htext
  exact Path.isClean_clean (Path.isAbsolute_join (Path.isAbsolute_parent hparts hne))

theorem OnChain.next {s : Sheet} (h : OnChain fs chain s.path) (hs : s.IsIn fs)
    (hnew : s.path ∉ chain) {q : Path} (hq : q ∈ s.imports) : OnChain fs (chain ++ [s.path]) q where
  linked := by
    rw [List.append_assoc]
    exact List.isChain_split.mpr
      ⟨h.linked, List.isChain_pair.mpr (hs.imports_iff.mpr hq)⟩
  once := Lists.nodup_append_singleton.mpr ⟨hnew, h.once⟩
  readable := by
    intro r hr
    rcases List.mem_append.mp hr with hr | hr
    · exact h.readable r hr
    · exact List.mem_singleton.mp hr ▸ hs.readable
  clean := by
    intro r hr
    rcases List.mem_append.mp hr with hr | hr
    · exact h.clean r hr
    · exact List.mem_singleton.mp hr ▸ isClean_of_imports hs (h.clean _ (by simp)) hq

theorem OnChain.length_le (hlinks : fs.HasNoLinks) (h : OnChain fs chain p) :
    chain.length ≤ fs.entries.length :=
  FileTree.length_le_entries hlinks h.once fun q hq =>
    ⟨h.clean q (List.mem_append_left _ hq), (h.readable q hq).2⟩

/-- A link can give a file any number of paths, but a walk follows only so many links. -/
theorem OnChain.lt_chainLimit (h : OnChain fs chain p) : chain.length < chainLimit fs := by
  have hfew : chain.length ≤ (fs.entries.length + 1) ^ (FileTree.linkLimit + 1) := by
    refine fs.length_le_pow h.once fun q hq => ⟨h.clean q (List.mem_append_left _ hq), ?_⟩
    obtain ⟨text, htext⟩ := (h.readable q hq).2
    obtain ⟨content, hentry⟩ := FileTree.entryAt?_of_readText htext
    obtain ⟨loc, hloc, -⟩ := FileTree.entryAt?_eq_ok hentry
    exact ⟨loc, hloc⟩
  have hlimit : chainLimit fs = (fs.entries.length + 2) ^ (FileTree.linkLimit + 2) := rfl
  calc chain.length
    _ ≤ (fs.entries.length + 1) ^ (FileTree.linkLimit + 1) := hfew
    _ ≤ (fs.entries.length + 2) ^ (FileTree.linkLimit + 1) := Nat.pow_le_pow_left (by omega) _
    _ < (fs.entries.length + 2) ^ (FileTree.linkLimit + 2) :=
      Nat.pow_lt_pow_right (by omega) (Nat.lt_succ_self _)
    _ = chainLimit fs := hlimit.symm

/-! ## Every run ends -/

section
variable {bound : Nat} (hbound : ∀ {chain p}, OnChain fs chain p → chain.length ≤ bound)
include hbound

/-- With more steps than a chain has files, the number of steps makes no difference. -/
theorem load_eq_of_bound {fuel' : Nat} (hl : l.IsAt fs chain) (h : OnChain fs chain p)
    (hfuel : bound < chain.length + fuel) (hfuel' : bound < chain.length + fuel') :
    load fs fuel l p = load fs fuel' l p := by
  have hlength := hbound h
  induction fuel generalizing fuel' chain l p with
  | zero => omega
  | succ fuel ih =>
    cases fuel' with
    | zero => omega
    | succ fuel' =>
      rw [load, load]
      split
      · rfl
      · split
        · rfl
        · next hchain =>
          cases hopen : openSheet fs p with
          | error e => rfl
          | ok s =>
            obtain ⟨hs, rfl⟩ := openSheet_eq_ok_iff.mp hopen
            have hnew : s.path ∉ chain := by
              simpa [hl.2] using hchain
            have himports : s.imports.foldlM (load fs fuel) ⟨l.resolving ++ [s.path], l.resolved⟩ =
                s.imports.foldlM (load fs fuel') ⟨l.resolving ++ [s.path], l.resolved⟩ := by
              refine Outcome.foldlM_congr (hl.begun s.path) (fun _ _ _ hl => hl.load) fun q hq l hl => ?_
              have hnext := h.next hs hnew hq
              exact ih hl hnext (by simp; omega) (by simp; omega) (hbound hnext)
            simp only [Outcome.bind_ok, himports]

end

/-- Without links there are no more files than entries. -/
theorem load_eq_of_lt (hlinks : fs.HasNoLinks) {fuel' : Nat} (hl : l.IsAt fs chain)
    (h : OnChain fs chain p) (hfuel : fs.entries.length < chain.length + fuel)
    (hfuel' : fs.entries.length < chain.length + fuel') : load fs fuel l p = load fs fuel' l p :=
  load_eq_of_bound (fun h => h.length_le hlinks) hl h hfuel hfuel'

end AmdBundle.Stylesheet
