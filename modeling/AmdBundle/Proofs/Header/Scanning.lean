import AmdBundle.Proofs.Header.Reading
import AmdBundle.Proofs.Lists
import Mathlib.Data.List.Forall2

/-!
# Scanning a text follows the grammar of its headers

`scan_follows_grammar` : a text is scanned exactly if every line that opens a module starts with a
header; then there is one header for each of these lines, in order, with its line number and its
literals in their places; otherwise the error is about the first line that starts with none.

* `OpensAt` : behind some front of a text a line opens a module; `mem_openings_iff` : these lines are
  the line starts that `opens` accepts;
* `scanLines_eq_ok_iff` : one header for every such line; `scanLines_eq_error` : the first line
  without one;
* `Literal.StandsIn` : the literal is spelled out where its place says.
-/

set_option autoImplicit false

namespace AmdBundle

/-- The literal stands in the text, with its quotes, right behind as many characters as its place
says. -/
def Literal.StandsIn (l : Literal) (code : Text) : Prop :=
  ∃ front back, code = front ++ l.spelling ++ back ∧ front.length = l.start

namespace Header

/-- All string literals of a header. -/
def literals (h : Header) : List Literal :=
  h.name :: h.dependencies

/-! ## Lines that open a module -/

/-- Behind `front` the text goes on with `rest`, on a line of its own that begins with `define`, then
spaces or tabs, then the bracket. -/
structure OpensAt (code front rest : Text) : Prop where
  split : code = front ++ rest
  column : front = [] ∨ front.getLast? = some '\n'
  head : ∃ gap tail, (∀ c ∈ gap, c = ' ' ∨ c = '\t') ∧ rest = defineWord ++ gap ++ '(' :: tail

theorem isGap_eq_true_iff {c : Char} : isGap c = true ↔ c = ' ' ∨ c = '\t' := by
  simp [isGap]

theorem opens_eq_true_iff {text : Text} :
    opens text = true ↔
      ∃ gap tail, (∀ c ∈ gap, c = ' ' ∨ c = '\t') ∧ text = defineWord ++ gap ++ '(' :: tail := by
  unfold opens
  constructor
  · intro h
    split at h
    · cases h
    · next rest hrest =>
      obtain ⟨tail, htail⟩ := List.head?_eq_some_iff.mp (eq_of_beq h)
      refine ⟨rest.takeWhile isGap, tail, fun c hc => ?_, ?_⟩
      · exact isGap_eq_true_iff.mp (List.mem_takeWhile_imp hc)
      · rw [Text.dropWord_eq_some_iff.mp hrest, List.append_assoc, ← htail,
          List.takeWhile_append_dropWhile]
        rfl
  · rintro ⟨gap, tail, hgap, rfl⟩
    have hdrop : Text.dropWord "define".toList (defineWord ++ gap ++ '(' :: tail) =
        some (gap ++ '(' :: tail) :=
      Text.dropWord_eq_some_iff.mpr (List.append_assoc defineWord gap ('(' :: tail))
    have hskip : (gap ++ '(' :: tail).dropWhile isGap = '(' :: tail := by
      rw [List.dropWhile_append_of_pos fun c hc => isGap_eq_true_iff.mpr (hgap c hc),
        List.dropWhile_cons_of_neg (by decide)]
    rw [hdrop]
    simp [hskip]

/-- The line starts that open a module. -/
def openings (code : Text) : List (Nat × Text) :=
  (Text.lineStarts code).filter fun line => opens line.2

theorem mem_openings_iff {code : Text} {line : Nat} {rest : Text} :
    (line, rest) ∈ openings code ↔
      ∃ front, OpensAt code front rest ∧ line = front.count '\n' + 1 := by
  simp only [openings, List.mem_filter, Text.mem_lineStarts_iff, opens_eq_true_iff]
  constructor
  · rintro ⟨⟨front, hsplit, hcolumn, hline⟩, hhead⟩
    exact ⟨front, ⟨hsplit, hcolumn, hhead⟩, hline⟩
  · rintro ⟨front, ⟨hsplit, hcolumn, hhead⟩, hline⟩
    exact ⟨⟨front, hsplit, hcolumn, hline⟩, hhead⟩

theorem pairwise_openings (code : Text) :
    (openings code).Pairwise (fun line line' => line.1 < line'.1) :=
  (Text.pairwise_lineStarts code).filter _

/-! ## All headers of some lines -/

theorem scanLines_eq_ok_iff {total : Nat} {lines : List (Nat × Text)} {headers : List Header} :
    scanLines total lines = .ok headers ↔
      List.Forall₂ (fun line h => read total line.1 line.2 = .ok h)
        (lines.filter fun line => opens line.2) headers := by
  induction lines generalizing headers with
  | nil =>
    rw [scanLines, List.filter_nil, List.forall₂_nil_left_iff, Except.ok.injEq]
    exact eq_comm
  | cons line lines ih =>
    obtain ⟨n, text⟩ := line
    by_cases h : opens text = true
    · rw [scanLines, if_pos h, List.filter_cons, if_pos h, List.forall₂_cons_left_iff]
      simp only [Outcome.bind_eq_ok_iff, ih, Except.ok.injEq]
      constructor
      · rintro ⟨first, hfirst, others, hothers, rfl⟩
        exact ⟨first, others, hfirst, hothers, rfl⟩
      · rintro ⟨first, others, hfirst, hothers, rfl⟩
        exact ⟨first, hfirst, others, hothers, rfl⟩
    · rw [scanLines, if_neg h, List.filter_cons, if_neg h, ih]

theorem scanLines_eq_error {total : Nat} {lines : List (Nat × Text)} {m : Malformed}
    (h : scanLines total lines = .error m) :
    ∃ before line after, (lines.filter fun line => opens line.2) = before ++ line :: after ∧
      read total line.1 line.2 = .error m ∧ ∀ l ∈ before, ∃ h, read total l.1 l.2 = .ok h := by
  induction lines with
  | nil => cases h
  | cons line lines ih =>
    obtain ⟨n, text⟩ := line
    by_cases hopens : opens text = true
    · rw [scanLines, if_pos hopens, Outcome.bind_eq_error_iff] at h
      rw [List.filter_cons, if_pos hopens]
      rcases h with hread | ⟨first, hread, h⟩
      · exact ⟨[], (n, text), _, rfl, hread, by simp⟩
      · rcases Outcome.bind_eq_error_iff.mp h with h | ⟨_, _, h⟩
        · obtain ⟨before, line, after, hlines, herror, hbefore⟩ := ih h
          refine ⟨(n, text) :: before, line, after, by rw [hlines]; rfl, herror, ?_⟩
          intro l hl
          rcases List.mem_cons.mp hl with rfl | hl
          · exact ⟨first, hread⟩
          · exact hbefore l hl
        · cases h
    · rw [scanLines, if_neg hopens] at h
      rw [List.filter_cons, if_neg hopens]
      exact ih h

/-! ## The line of an error -/

/-- If the step fails, the error is about that line. -/
def Blames {α : Type} (line : Nat) (x : Except Malformed α) : Prop :=
  ∀ m, x = .error m → m.line = line

theorem blames_ok {α : Type} (line : Nat) (a : α) : Blames line (.ok a) := by
  intro m h
  cases h

theorem Blames.bind {α β : Type} {line : Nat} {x : Except Malformed α}
    {f : α → Except Malformed β} (hx : Blames line x) (hf : ∀ a, Blames line (f a)) :
    Blames line (x >>= f) := by
  intro m h
  rcases Outcome.bind_eq_error_iff.mp h with h | ⟨a, -, h⟩
  · exact hx m h
  · exact hf a m h

theorem blames_need {α : Type} (line : Nat) (expected : Expected) (rest : Text) (o : Option α) :
    Blames line (need line expected rest o) := by
  cases o with
  | none => rintro m ⟨⟩; rfl
  | some a => exact blames_ok line a

theorem blames_readDependencies (total line fuel : Nat) (text : Text) :
    Blames line (readDependencies total line fuel text) := by
  induction fuel generalizing text with
  | zero => rintro m ⟨⟩; rfl
  | succ fuel ih =>
    unfold readDependencies
    refine (blames_need _ _ _ _).bind fun found => ?_
    dsimp only
    split
    · exact (ih _).bind fun _ => blames_ok line _
    · exact (blames_need _ _ _ _).bind fun _ => blames_ok line _

theorem blames_readList (total line : Nat) (text : Text) : Blames line (readList total line text) := by
  unfold readList
  dsimp only
  split
  · exact blames_ok line _
  · exact blames_readDependencies _ _ _ _

theorem blames_read (total line : Nat) (text : Text) : Blames line (read total line text) := by
  unfold read
  exact (blames_need _ _ _ _).bind fun _ => (blames_need _ _ _ _).bind fun _ => (blames_need _ _ _ _).bind fun _ =>
    (blames_need _ _ _ _).bind fun _ => (blames_need _ _ _ _).bind fun _ => (blames_readList _ _ _).bind fun _ =>
    (blames_need _ _ _ _).bind fun _ => (blames_need _ _ _ _).bind fun _ => blames_ok line _

/-! ## The places of literals -/

theorem Shape.literals_header (s : Shape) (line start : Nat) :
    (s.header line start).literals = placed (start + defineWord.length) s.tokens := by
  have hfront : placed (start + defineWord.length) s.front =
      [s.name.literal.place (s.nameStart start)] := by
    simp [Shape.front, Item.tokens, Shape.nameStart_eq]
  have hback : ∀ n, placed n s.back = [] := fun n => rfl
  rw [Shape.tokens, placed_append, placed_append, hfront, hback, ← Shape.listStart_eq,
    List.append_nil]
  rfl

theorem Shape.standsIn_of_mem_literals {s : Shape} {code front text : Text} {line : Nat}
    {l : Literal} (hcode : code = front ++ text) (hs : s.Starts text)
    (hl : l ∈ (s.header line front.length).literals) : l.StandsIn code := by
  rw [Shape.literals_header] at hl
  obtain ⟨a, b, hspell, hstart⟩ := exists_spell_of_mem_placed hl
  obtain ⟨rest, rfl, -⟩ := hs
  refine ⟨front ++ defineWord ++ a, b ++ rest, ?_, ?_⟩
  · rw [hcode, Shape.text, hspell]
    simp
  · rw [hstart]
    simp
    omega

/-! ## Scanning -/

theorem read_opening_iff {code front rest : Text} (line : Nat) {h : Header}
    (hopens : OpensAt code front rest) :
    read code.length line rest = .ok h ↔
      ∃ s : Shape, s.Starts rest ∧ h = s.header line front.length :=
  read_eq_ok_iff (by rw [hopens.split, List.length_append])

/-- The headers of a text are those of its openings, one by one. -/
theorem scan_eq_ok_iff {code : Text} {headers : List Header} :
    scan code = .ok headers ↔
      List.Forall₂ (fun line h => read code.length line.1 line.2 = .ok h) (openings code) headers :=
  scanLines_eq_ok_iff

theorem line_of_read {total line : Nat} {text : Text} {h : Header}
    (hread : read total line text = .ok h) : h.line = line := by
  simp only [read, Outcome.bind_eq_ok_iff] at hread
  obtain ⟨_, -, _, -, _, -, _, -, _, -, _, -, _, -, _, -, hheader⟩ := hread
  rw [← Except.ok.inj hheader]

theorem pairwise_line_of_scan {code : Text} {headers : List Header}
    (h : scan code = .ok headers) : headers.Pairwise (fun h h' => h.line < h'.line) := by
  refine Lists.pairwise_of_forall₂ (scan_eq_ok_iff.mp h) (fun line line' h h' hread hread' hlt => ?_)
    (pairwise_openings code)
  rw [line_of_read hread, line_of_read hread']
  exact hlt

theorem mem_headers_iff {code : Text} {headers : List Header} (hscan : scan code = .ok headers)
    {h : Header} : h ∈ headers ↔ ∃ front rest, OpensAt code front rest ∧
      ∃ s : Shape, s.Starts rest ∧ h = s.header (front.count '\n' + 1) front.length := by
  have hall := scan_eq_ok_iff.mp hscan
  constructor
  · intro hmem
    obtain ⟨⟨line, rest⟩, hline, hread⟩ := Lists.exists_of_mem_right hall hmem
    obtain ⟨front, hopens, rfl⟩ := mem_openings_iff.mp hline
    exact ⟨front, rest, hopens, (read_opening_iff _ hopens).mp hread⟩
  · rintro ⟨front, rest, hopens, hs⟩
    obtain ⟨h', hmem, hread⟩ :=
      Lists.exists_of_mem_left hall (mem_openings_iff.mpr ⟨front, hopens, rfl⟩)
    rw [(read_opening_iff _ hopens).mpr hs] at hread
    exact Except.ok.inj hread ▸ hmem

theorem exists_header_of_scan {code front rest : Text} {headers : List Header}
    (hscan : scan code = .ok headers) (hopens : OpensAt code front rest) :
    ∃ s : Shape, s.Starts rest := by
  obtain ⟨h, -, hread⟩ := Lists.exists_of_mem_left (scan_eq_ok_iff.mp hscan)
    (mem_openings_iff.mpr ⟨front, hopens, rfl⟩)
  obtain ⟨s, hs, -⟩ := (read_opening_iff _ hopens).mp hread
  exact ⟨s, hs⟩

theorem quote_eq_of_scan {code : Text} {headers : List Header} (hscan : scan code = .ok headers)
    {h : Header} (hh : h ∈ headers) {l : Literal} (hl : l ∈ h.literals) :
    l.quote = '"' ∨ l.quote = '\'' := by
  obtain ⟨front, rest, -, s, -, rfl⟩ := (mem_headers_iff hscan).mp hh
  rw [Shape.literals_header] at hl
  exact quote_eq_of_mem_placed hl

/-- The error of a text is about the first opening that starts with no header. -/
theorem exists_opening_of_scan_error {code : Text} {m : Malformed} (h : scan code = .error m) :
    ∃ front rest, OpensAt code front rest ∧ m.line = front.count '\n' + 1 ∧
      (∀ s : Shape, ¬ s.Starts rest) ∧
      ∀ front' rest', OpensAt code front' rest' → front'.count '\n' + 1 < m.line →
        ∃ s : Shape, s.Starts rest' := by
  obtain ⟨before, ⟨line, rest⟩, after, hlines, herror, hbefore⟩ := scanLines_eq_error h
  have hopenings : openings code = before ++ (line, rest) :: after := hlines
  have hsorted := pairwise_openings code
  rw [hopenings] at hsorted
  have hmem : (line, rest) ∈ openings code := by simp [hopenings]
  obtain ⟨front, hopens, rfl⟩ := mem_openings_iff.mp hmem
  have hline : m.line = front.count '\n' + 1 := blames_read _ _ _ m herror
  refine ⟨front, rest, hopens, hline, fun s hs => ?_, fun front' rest' hopens' hlt => ?_⟩
  · have hread := (read_opening_iff (front.count '\n' + 1) hopens).mpr ⟨s, hs, rfl⟩
    rw [hread] at herror
    cases herror
  · have hmem' : (front'.count '\n' + 1, rest') ∈ before ++ (front.count '\n' + 1, rest) :: after := by
      rw [← hopenings]
      exact mem_openings_iff.mpr ⟨front', hopens', rfl⟩
    -- Line numbers grow, so an opening with a smaller one comes before.
    rcases List.mem_append.mp hmem' with hmem' | hmem'
    · obtain ⟨h', hread⟩ := hbefore _ hmem'
      obtain ⟨s, hs, -⟩ := (read_opening_iff _ hopens').mp hread
      exact ⟨s, hs⟩
    · have hle : front.count '\n' + 1 ≤ front'.count '\n' + 1 := by
        rcases List.mem_cons.mp hmem' with heq | hafter
        · exact Nat.le_of_eq (congrArg Prod.fst heq).symm
        · exact Nat.le_of_lt ((List.pairwise_cons.mp (List.pairwise_append.mp hsorted).2.1).1 _ hafter)
      omega

/-- **Scanning follows the grammar.** A text is scanned exactly if every line that opens a module
starts with a header. Then there is one header for each of these lines, in order, with its line
number, its name and its dependencies, and every literal stands where its place says. Otherwise the
error is about the first of these lines that starts with no header. -/
theorem scan_follows_grammar (code : Text) :
    ((∃ headers, scan code = .ok headers) ↔
      ∀ front rest, OpensAt code front rest → ∃ s : Shape, s.Starts rest) ∧
    (∀ headers, scan code = .ok headers →
      headers.Pairwise (fun h h' => h.line < h'.line) ∧
      (∀ h, h ∈ headers ↔ ∃ front rest, OpensAt code front rest ∧
        ∃ s : Shape, s.Starts rest ∧ h = s.header (front.count '\n' + 1) front.length) ∧
      ∀ h ∈ headers, ∀ l ∈ h.literals, l.StandsIn code) ∧
    ∀ m, scan code = .error m →
      ∃ front rest, OpensAt code front rest ∧ m.line = front.count '\n' + 1 ∧
        (∀ s : Shape, ¬ s.Starts rest) ∧
        ∀ front' rest', OpensAt code front' rest' → front'.count '\n' + 1 < m.line →
          ∃ s : Shape, s.Starts rest' := by
  refine ⟨⟨?_, ?_⟩, fun headers hscan => ⟨pairwise_line_of_scan hscan, fun h =>
    mem_headers_iff hscan, ?_⟩, fun m => exists_opening_of_scan_error⟩
  · rintro ⟨headers, hscan⟩ front rest hopens
    exact exists_header_of_scan hscan hopens
  · intro hall
    cases hscan : scan code with
    | ok headers => exact ⟨headers, rfl⟩
    | error m =>
      obtain ⟨front, rest, hopens, -, hnone, -⟩ := exists_opening_of_scan_error hscan
      obtain ⟨s, hs⟩ := hall front rest hopens
      exact absurd hs (hnone s)
  · intro h hmem l hl
    obtain ⟨front, rest, hopens, s, hs, rfl⟩ := (mem_headers_iff hscan).mp hmem
    exact Shape.standsIn_of_mem_literals hopens.split hs hl

end Header

end AmdBundle
