import AmdBundle.Proofs.Header.Bare

/-!
# Texts cut at their headers

A text whose headers have no escapes is a front and a row of sections, each a header and the text
behind it up to the next line that opens a module.

* `Section`, `Cut` : such a row behind some text without headers;
* `Cut.scan` : scanning a text that is put together finds the headers of its sections;
* `exists_cut` : a text that is scanned can be cut.
-/

set_option autoImplicit false

namespace AmdBundle.Header

/-! ## Lines that open a module -/

/-- What stands in a text behind its first line feed decides nothing about its first line. -/
theorem opens_append {u : Text} (hends : u.getLast? = some '\n') (v : Text) :
    opens (u ++ v) = opens u := by
  rw [Bool.eq_iff_iff, opens_eq_true_iff, opens_eq_true_iff]
  constructor
  · rintro ⟨gap, tail, hgap, htext⟩
    have hsplit : u ++ v = (defineWord ++ gap ++ ['(']) ++ tail := by simpa using htext
    rcases List.append_eq_append_iff.mp hsplit with ⟨as, hhead, -⟩ | ⟨as, rfl, -⟩
    · have hfeed : '\n' ∈ defineWord ++ gap ++ ['('] := by
        rw [hhead]
        exact List.mem_append_left _ (List.mem_of_getLast? hends)
      rcases List.mem_append.mp hfeed with hfeed | hfeed
      · rcases List.mem_append.mp hfeed with hfeed | hfeed
        · exact absurd hfeed (by decide)
        · rcases hgap _ hfeed with h | h <;> exact absurd h (by decide)
      · exact absurd hfeed (by decide)
    · exact ⟨gap, as, hgap, by simp⟩
  · rintro ⟨gap, tail, hgap, rfl⟩
    exact ⟨gap, tail ++ v, hgap, by simp⟩

/-- The header begins with `define`, spaces or tabs, and the bracket. -/
def Shape.Opens (s : Shape) : Prop :=
  ∀ c ∈ s.behindDefine.text, c = ' ' ∨ c = '\t'

theorem Shape.opens_text_append {s : Shape} (h : s.Opens) (rest : Text) :
    opens (s.text ++ rest) = true := by
  rw [Shape.text_append]
  exact opens_eq_true_iff.mpr ⟨s.behindDefine.text, _, h, (List.append_assoc _ _ _).symm⟩

theorem Shape.opens_of_text_append {s : Shape} {rest : Text} (h : opens (s.text ++ rest) = true) :
    s.Opens := by
  obtain ⟨gap, tail, hgap, hhead⟩ := opens_eq_true_iff.mp h
  rw [Shape.text_append, List.append_assoc] at hhead
  rcases List.append_eq_append_iff.mp (List.append_cancel_left hhead) with
    ⟨as, rfl, -⟩ | ⟨as, hblanks, hrest⟩
  · exact fun c hc => hgap c (List.mem_append_left _ hc)
  · cases as with
    | nil =>
      rw [List.append_nil] at hblanks
      intro c hc
      exact hgap c (hblanks ▸ hc)
    | cons d as =>
      -- White space has no bracket in it.
      obtain rfl : '(' = d := (List.cons.inj hrest).1
      exact absurd (s.behindDefine.blank '(' (by simp [hblanks])) (by decide)

/-! ## Sections -/

/-- A header and the text behind it. -/
structure Section where
  header : Shape
  behind : Text

def Section.text (s : Section) : Text :=
  s.header.text ++ s.behind

def textOf (sections : List Section) : Text :=
  sections.flatMap Section.text

@[simp] theorem textOf_nil : textOf [] = [] := rfl

@[simp] theorem textOf_cons (s : Section) (sections : List Section) :
    textOf (s :: sections) = s.header.text ++ (s.behind ++ textOf sections) := by
  simp [textOf, Section.text]

/-- The headers of some sections, the first of which begins on a line and behind `start`
characters. -/
def headersOf : Nat → Nat → List Section → List Header
  | _, _, [] => []
  | line, start, s :: sections =>
    s.header.header line start ::
      headersOf (line + s.text.count '\n') (start + s.text.length) sections

/-- No line behind a line feed of the text opens a module. -/
def Quiet (text : Text) : Prop :=
  ∀ u v, text = u ++ '\n' :: v → opens v = false

/-- Behind a gap, in which no line opens a module, come sections, each on a line of its own. -/
inductive Cut : Text → List Section → Prop where
  | last {gap : Text} (quiet : Quiet gap) : Cut gap []
  | more {gap : Text} {s : Section} {sections : List Section} (quiet : Quiet gap)
      (ends : gap.getLast? = some '\n') (opens : s.header.Opens) (bare : s.header.Bare)
      (boundary : ∀ c ∈ s.behind.head?, isNameChar c = false) (tail : Cut s.behind sections) :
      Cut gap (s :: sections)

theorem Cut.starts {s : Section} {sections : List Section}
    (boundary : ∀ c ∈ s.behind.head?, isNameChar c = false) (tail : Cut s.behind sections) :
    s.header.Starts (textOf (s :: sections)) := by
  refine ⟨s.behind ++ textOf sections, by simp, fun c hc => ?_⟩
  cases hbehind : s.behind with
  | nil =>
    -- An empty text does not end a line, so no section follows.
    rw [hbehind] at tail hc
    cases tail with
    | last => cases hc
    | more _ ends => cases ends
  | cons d behind =>
    rw [hbehind, List.cons_append, List.head?_cons] at hc
    exact boundary c (by rw [hbehind, List.head?_cons]; exact hc)

/-! ## Scanning sections -/

theorem filter_laterLines_quiet {gap : Text} (hquiet : Quiet gap) (n : Nat) :
    (Text.laterLines n gap).filter (fun line => opens line.2) = [] := by
  rw [List.filter_eq_nil_iff]
  rintro ⟨m, v⟩ hline
  obtain ⟨u, hgap, -⟩ := Text.mem_laterLines_iff.mp hline
  simp [hquiet u v hgap]

/-- Of the lines of a gap, only that behind its end can open a module. -/
theorem filter_laterLines_gap {gap rest : Text} (hquiet : Quiet gap)
    (hends : gap.getLast? = some '\n') (hopens : opens rest = true) (n : Nat) :
    (Text.laterLines n (gap ++ rest)).filter (fun line => opens line.2) =
      (n + gap.count '\n', rest) ::
        (Text.laterLines (n + gap.count '\n') rest).filter fun line => opens line.2 := by
  obtain ⟨front, rfl⟩ := List.getLast?_eq_some_iff.mp hends
  have hfront : ∀ line ∈ Text.laterLines n front,
      opens (line.2 ++ '\n' :: rest) = false := by
    rintro ⟨m, v⟩ hline
    obtain ⟨u, rfl, -⟩ := Text.mem_laterLines_iff.mp hline
    have hv : opens (v ++ ['\n']) = false := hquiet u _ (by simp)
    have hrest := opens_append (u := v ++ ['\n']) (by simp) rest
    rw [List.append_assoc] at hrest
    exact hrest.trans hv
  have hnone : ((Text.laterLines n front).map fun line => (line.1, line.2 ++ '\n' :: rest)).filter
      (fun line => opens line.2) = [] := by
    rw [List.filter_map, List.map_eq_nil_iff, List.filter_eq_nil_iff]
    intro line hline
    simp [hfront line hline]
  rw [List.append_assoc, Text.laterLines_append, List.filter_append]
  show _ ++ (Text.laterLines _ ('\n' :: rest)).filter _ = _
  rw [show ['\n'] ++ rest = '\n' :: rest from rfl, hnone, Text.laterLines, if_pos rfl,
    List.filter_cons, if_pos hopens]
  simp [Nat.add_assoc]

theorem filter_laterLines_header {s : Shape} (hbare : s.Bare) (n : Nat) (rest : Text) :
    (Text.laterLines n (s.text ++ rest)).filter (fun line => opens line.2) =
      (Text.laterLines (n + s.text.count '\n') rest).filter fun line => opens line.2 := by
  have hnone : ((Text.laterLines n s.text).map fun line => (line.1, line.2 ++ rest)).filter
      (fun line => opens line.2) = [] := by
    rw [List.filter_map, List.map_eq_nil_iff, List.filter_eq_nil_iff]
    rintro ⟨m, v⟩ hline
    obtain ⟨u, htext, -⟩ := Text.mem_laterLines_iff.mp hline
    simp [Shape.opens_eq_false hbare htext rest]
  rw [Text.laterLines_append, List.filter_append, hnone, List.nil_append]

theorem Cut.forall₂_read {gap : Text} {sections : List Section} (h : Cut gap sections)
    (n start total : Nat) (htotal : total = start + (textOf sections).length) :
    List.Forall₂ (fun line h => read total line.1 line.2 = .ok h)
      ((Text.laterLines n (gap ++ textOf sections)).filter fun line => opens line.2)
      (headersOf (n + gap.count '\n') start sections) := by
  induction h generalizing n start with
  | last quiet =>
    rw [textOf_nil, List.append_nil, filter_laterLines_quiet quiet]
    exact .nil
  | @more gap s sections quiet ends hopens bare boundary tail ih =>
    have hlength : (s.text ++ textOf sections).length = (textOf (s :: sections)).length := rfl
    have hopens' : opens (textOf (s :: sections)) = true := by
      rw [textOf_cons]
      exact Shape.opens_text_append hopens _
    rw [filter_laterLines_gap quiet ends hopens']
    refine .cons (read_of_starts _ htotal (Cut.starts boundary tail)) ?_
    rw [textOf_cons, filter_laterLines_header bare]
    have hmore := ih (n + gap.count '\n' + s.header.text.count '\n') (start + s.text.length) (by
      rw [htotal, ← hlength, List.length_append, Nat.add_assoc])
    rw [Nat.add_assoc _ (s.header.text.count '\n'), ← List.count_append] at hmore
    exact hmore

/-- **Scanning a text that is put together** finds the headers of its sections. -/
theorem Cut.scan {front : Text} {sections : List Section} (h : Cut ('\n' :: front) sections) :
    scan (front ++ textOf sections) = .ok (headersOf (front.count '\n' + 1) front.length sections) := by
  rw [scan_eq_ok_iff, openings, Text.lineStarts_eq]
  have hread := h.forall₂_read 0 front.length (front ++ textOf sections).length
    (List.length_append)
  rwa [List.count_cons_self, Nat.zero_add] at hread

/-! ## Cutting a text -/

/-- A text is quiet, or there is a first line that opens a module. -/
theorem quiet_or_exists_first (text : Text) :
    Quiet text ∨ ∃ gap rest, text = gap ++ rest ∧ gap.getLast? = some '\n' ∧ Quiet gap ∧
      opens rest = true := by
  induction text with
  | nil =>
    left
    intro u v h
    simp at h
  | cons c text ih =>
    by_cases hhere : c = '\n' ∧ opens text = true
    · right
      obtain ⟨rfl, hopens⟩ := hhere
      refine ⟨['\n'], text, rfl, rfl, ?_, hopens⟩
      intro u v h
      cases u with
      | nil =>
        obtain ⟨-, rfl⟩ := List.cons.inj h
        rfl
      | cons d u => simp at h
    · -- The first line behind `c` is not the one; the others are those of the rest.
      rcases ih with hquiet | ⟨gap, rest, rfl, hends, hquiet, hopens⟩
      · left
        intro u v h
        cases u with
        | nil =>
          obtain ⟨rfl, rfl⟩ := List.cons.inj h
          exact Bool.not_eq_true _ ▸ fun hopens => hhere ⟨rfl, hopens⟩
        | cons d u => exact hquiet u v (List.cons.inj h).2
      · right
        refine ⟨c :: gap, rest, rfl, ?_, ?_, hopens⟩
        · rw [List.getLast?_cons, hends]
          rfl
        · intro u v h
          cases u with
          | nil =>
            obtain ⟨rfl, rfl⟩ := List.cons.inj h
            rw [opens_append hends] at hhere
            exact Bool.not_eq_true _ ▸ fun hopens => hhere ⟨rfl, hopens⟩
          | cons d u => exact hquiet u v (List.cons.inj h).2

/-- **Cutting a text.** If every line of a text that opens a module starts with a header without
escapes, the text can be cut at headers. -/
theorem exists_cut (text : Text)
    (hall : ∀ u v, text = u ++ '\n' :: v → opens v = true → ∃ s : Shape, s.Starts v ∧ s.Bare) :
    ∃ gap sections, text = gap ++ textOf sections ∧ Cut gap sections := by
  rcases quiet_or_exists_first text with hquiet | ⟨gap, rest, htext, hends, hquiet, hopens⟩
  · exact ⟨text, [], by simp, .last hquiet⟩
  · obtain ⟨front, rfl⟩ := List.getLast?_eq_some_iff.mp hends
    obtain ⟨s, ⟨tail, rfl, hboundary⟩, hbare⟩ := hall front rest (by simp [htext]) hopens
    have hshorter : tail.length < text.length := by
      rw [htext]
      simp
      omega
    obtain ⟨behind, sections, rfl, hcut⟩ := exists_cut tail fun u v htail hopens =>
      hall (front ++ ['\n'] ++ s.text ++ u) v (by simp [htext, htail]) hopens
    refine ⟨front ++ ['\n'], ⟨s, behind⟩ :: sections, by simp [htext], ?_⟩
    refine .more hquiet hends (Shape.opens_of_text_append hopens) hbare ?_ hcut
    intro c hc
    exact hboundary c (by
      rw [List.head?_append, Option.mem_def.mp hc]
      rfl)
termination_by text.length

end AmdBundle.Header
