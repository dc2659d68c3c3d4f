import AmdBundle.Proofs.FileTree.Walk
import Mathlib.Algebra.Order.BigOperators.Group.List
import Mathlib.Tactic.Ring

/-!
# Trees with links

A walk that follows links goes on from where a link leads as if it began there. So a clean path is
known by the links that stand on it and by the place behind the last of them, and there are no more
such paths than there are choices of these.

* `walk_cases` : a walk down either meets no link, or goes on behind the first one;
* `hasWays` : few paths lead anywhere from one place; `length_le_pow` : so few clean paths do.
-/

set_option autoImplicit false

namespace AmdBundle.FileTree
open AmdBundle.Path
variable {fs : FileTree} {links : Nat} {loc found : Location}

/-! ## Walks down -/

/-- Names of which none leads up or nowhere go down, up to the first link on the way. -/
theorem walk_cases {parts : List Text} (hparts : ∀ part ∈ parts, IsName part)
    (h : fs.walk links loc parts = .ok found) :
    (found = loc ++ parts ∧ (parts = [] ∨ found ∈ fs.entries.map Prod.fst)) ∨
      ∃ front name rest target links', parts = front ++ name :: rest ∧ links = links' + 1 ∧
        fs.find? (loc ++ front ++ [name]) = some (.link target) ∧
        fs.walk links' (linkBase target (loc ++ front)) (names target ++ rest) = .ok found := by
  induction parts generalizing loc with
  | nil =>
    rw [walk] at h
    exact .inl ⟨by simpa using (Except.ok.inj h).symm, .inl rfl⟩
  | cons part parts ih =>
    obtain ⟨hpart, hparts⟩ := List.forall_mem_cons.mp hparts
    rw [walk] at h
    split at h
    · cases h
    · rw [if_neg (by simp [hpart.notIdle]), if_neg hpart.notUp] at h
      split at h
      · cases h
      · split at h
        · cases h
        · next target hfind =>
          cases links with
          | zero => cases h
          | succ links => exact .inr ⟨[], part, parts, target, links, rfl, rfl, by simpa using hfind, by simpa using h⟩
        · next entry hlink hfind =>
          rcases ih hparts h with ⟨rfl, hin⟩ | ⟨front, name, rest, target, links', rfl, rfl, hlink, hwalk⟩
          · refine .inl ⟨by simp, .inr ?_⟩
            rcases hin with rfl | hin
            · exact List.mem_map_of_mem (mem_entries_of_find? (by simp) (by simpa using hfind))
            · simpa using hin
          · exact .inr ⟨part :: front, name, rest, target, links', rfl, rfl, by simpa using hlink,
              by simpa using hwalk⟩

/-! ## Few paths lead anywhere -/

/-- All paths along which a walk from that place arrives are among so many. -/
def HasWays (fs : FileTree) (links bound : Nat) (loc : Location) : Prop :=
  ∃ ways : List (List Text), ways.length ≤ bound ∧
    ∀ parts found, (∀ part ∈ parts, IsName part) → fs.walk links loc parts = .ok found → parts ∈ ways

/-- What may stand on a path behind an entry: something only behind a link, and there the same
wherever the path comes from. -/
theorem exists_behind {bound : Nat} (hways : ∀ loc, fs.HasWays links bound loc)
    (item : Location × Entry) :
    ∃ behind : List (List Text), behind.length ≤ bound ∧
      ∀ target, item.2 = .link target → ∀ rest found, (∀ part ∈ rest, IsName part) →
        fs.walk links (linkBase target item.1.dropLast) (names target ++ rest) = .ok found →
        rest ∈ behind := by
  obtain ⟨key, entry⟩ := item
  cases entry with
  | file content => exact ⟨[], Nat.zero_le _, nofun⟩
  | folder => exact ⟨[], Nat.zero_le _, nofun⟩
  | link target =>
    cases hmid : fs.walk links (linkBase target key.dropLast) (names target) with
    | error e =>
      refine ⟨[], Nat.zero_le _, ?_⟩
      rintro _ ⟨⟩ rest found - h
      obtain ⟨mid, hok, -⟩ := walk_append h
      rw [hmid] at hok
      cases hok
    | ok mid =>
      obtain ⟨behind, hlength, hbehind⟩ := hways mid
      refine ⟨behind, hlength, ?_⟩
      rintro _ ⟨⟩ rest found hrest h
      obtain ⟨mid', hok, hmore⟩ := walk_append h
      rw [hmid] at hok
      obtain rfl := Except.ok.inj hok
      exact hbehind rest found hrest hmore

/-- The names from a place down to each of the entries, and none at all. -/
def descents (fs : FileTree) (loc : Location) : List (List Text) :=
  [] :: fs.entries.map fun item => item.1.drop loc.length

theorem length_descents (fs : FileTree) (loc : Location) :
    (fs.descents loc).length = fs.entries.length + 1 := by
  simp [descents]

theorem mem_descents {parts : List Text}
    (h : parts = [] ∨ loc ++ parts ∈ fs.entries.map Prod.fst) : parts ∈ fs.descents loc := by
  rcases h with rfl | h
  · exact List.mem_cons_self
  · obtain ⟨item, hitem, hkey⟩ := List.mem_map.mp h
    exact List.mem_cons_of_mem _ (List.mem_map.mpr ⟨item, hitem, by rw [hkey, List.drop_left]⟩)

/-- From one place few paths lead anywhere: each goes down to an entry, or down to one of the links
and on along one of the few paths behind it. -/
theorem hasWays (fs : FileTree) (links : Nat) (loc : Location) :
    fs.HasWays links ((fs.entries.length + 1) ^ (links + 1)) loc := by
  induction links generalizing loc with
  | zero =>
    refine ⟨fs.descents loc, by simp [length_descents], fun parts found hparts h => ?_⟩
    rcases walk_cases hparts h with ⟨rfl, hkey⟩ | ⟨_, _, _, _, links', -, hlinks, -⟩
    · exact mem_descents hkey
    · cases hlinks
  | succ links ih =>
    choose behind hlength hbehind using exists_behind ih
    let onward : List (List Text) := fs.entries.flatMap fun item =>
      (behind item).map (item.1.drop loc.length ++ ·)
    have honward : onward.length ≤ fs.entries.length * (fs.entries.length + 1) ^ (links + 1) := by
      have hmost : ∀ n ∈ fs.entries.map fun item => (behind item).length,
          n ≤ (fs.entries.length + 1) ^ (links + 1) :=
        List.forall_mem_map.mpr fun item _ => hlength item
      simpa [onward, List.length_flatMap] using List.sum_le_card_nsmul _ _ hmost
    refine ⟨fs.descents loc ++ onward, ?_, fun parts found hparts h => ?_⟩
    · have hone : fs.entries.length + 1 ≤ (fs.entries.length + 1) ^ (links + 1) :=
        Nat.le_self_pow (Nat.succ_ne_zero links) _
      rw [List.length_append, length_descents]
      calc fs.entries.length + 1 + onward.length
        _ ≤ (fs.entries.length + 1) ^ (links + 1) +
            fs.entries.length * (fs.entries.length + 1) ^ (links + 1) := Nat.add_le_add hone honward
        _ = (fs.entries.length + 1) ^ (links + 1 + 1) := by ring
    · rcases walk_cases hparts h with ⟨rfl, hkey⟩ |
        ⟨front, name, rest, target, links', rfl, hlinks, hlink, hwalk⟩
      · exact List.mem_append_left _ (mem_descents hkey)
      · obtain rfl := Nat.succ.inj hlinks
        let item : Location × Entry := (loc ++ front ++ [name], .link target)
        have hitem : item ∈ fs.entries := mem_entries_of_find? (by simp) hlink
        have hrest : rest ∈ behind item := by
          refine hbehind item target rfl rest found (fun part hpart => hparts part (by simp [hpart])) ?_
          rwa [List.dropLast_concat]
        refine List.mem_append_right _ (List.mem_flatMap.mpr ⟨item, hitem, ?_⟩)
        exact List.mem_map.mpr ⟨rest, hrest, by simp [item]⟩

/-- Clean paths that lead anywhere are few: every one of them goes down from the root. -/
theorem length_le_pow (fs : FileTree) {paths : List Path} (hnodup : paths.Nodup)
    (hlead : ∀ p ∈ paths, IsClean p ∧ ∃ found, fs.locate p = .ok found) :
    paths.length ≤ (fs.entries.length + 1) ^ (linkLimit + 1) := by
  obtain ⟨ways, hlength, hways⟩ := fs.hasWays linkLimit []
  have hsubset : paths ⊆ ways.map pathOf := by
    intro p hp
    obtain ⟨⟨parts, rfl, hparts⟩, found, hfound⟩ := hlead p hp
    refine List.mem_map_of_mem ?_
    unfold locate at hfound
    split at hfound
    · cases hfound
    · rw [names_pathOf hparts] at hfound
      split at hfound
      · next hnil =>
        subst hnil
        exact hways [] [] (by simp) (by rw [walk])
      · exact hways parts found hparts hfound
  calc paths.length
    _ ≤ (ways.map pathOf).length := (List.subperm_of_subset hnodup hsubset).length_le
    _ = ways.length := List.length_map _
    _ ≤ _ := hlength

end AmdBundle.FileTree
