import AmdBundle.Proofs.Header.Scanning

/-!
# Headers inside headers

A header may go on over several lines, and every line is looked at. `hides_or_behind` : a line that
opens a module begins either behind the whole of an earlier header or inside one of its string
literals, where a backslash stands before the line feed. White space, marks and words cannot be
followed by the `d` of `define`, so a line that begins among them opens nothing.

* `Literal.Hides` : the line begins inside the literal;
* `pairwise_placed`, `bounds_of_mem_placed` : the literals of one header stand one behind the other,
  inside the header.
-/

set_option autoImplicit false

namespace AmdBundle

/-- The line behind `front` begins inside the literal, where a backslash takes the line feed. -/
structure Literal.Hides (l : Literal) (front : Text) : Prop where
  start_lt : l.start < front.length
  lt_stop : front.length < l.stop
  escaped : ∃ t, front = t ++ ['\\', '\n']

namespace Header

/-! ## The literals of one header -/

theorem Quoted.stop_place (q : Quoted) (start : Nat) :
    (q.place start).stop = start + q.text.length := by
  simp [Literal.stop, Quoted.place, Quoted.text]
  omega

theorem bounds_of_mem_placed {l : Literal} {start : Nat} {tokens : List Token}
    (h : l ∈ placed start tokens) : start ≤ l.start ∧ l.stop ≤ start + (spell tokens).length := by
  obtain ⟨a, b, hspell, hstart⟩ := exists_spell_of_mem_placed h
  have hlength : l.spelling.length = l.content.length + 2 := by simp [Literal.spelling]
  rw [hspell]
  simp only [Literal.stop, List.length_append, hlength]
  omega

theorem pairwise_placed (start : Nat) (tokens : List Token) :
    (placed start tokens).Pairwise (fun l l' => l.stop ≤ l'.start) := by
  induction tokens generalizing start with
  | nil => exact List.Pairwise.nil
  | cons t more ih =>
    cases t with
    | literal q =>
      rw [placed_literal]
      refine List.Pairwise.cons (fun l hl => ?_) (ih _)
      rw [Quoted.stop_place]
      exact (bounds_of_mem_placed hl).1
    | blanks b => exact ih _
    | mark m => exact ih _
    | function => exact ih _

theorem Shape.bounds_of_mem_literals {s : Shape} {line start : Nat} {l : Literal}
    (hl : l ∈ (s.header line start).literals) :
    start ≤ l.start ∧ l.stop ≤ start + s.text.length := by
  rw [Shape.literals_header] at hl
  have hbounds := bounds_of_mem_placed hl
  rw [Shape.text, List.length_append]
  omega

theorem Shape.pairwise_literals (s : Shape) (line start : Nat) :
    (s.header line start).literals.Pairwise (fun l l' => l.stop ≤ l'.start) := by
  rw [Shape.literals_header]
  exact pairwise_placed _ _

/-! ## A line feed among the tokens -/

/-- A line feed inside a literal is escaped. -/
theorem Inner.escaped_of_feed {quote : Char} {content u w : Text} (h : Inner quote content)
    (hfeed : content = u ++ '\n' :: w) : ∃ t, u = t ++ ['\\'] := by
  induction h generalizing u with
  | nil => simp at hfeed
  | @plain c rest hbackslash hc hquote _ ih =>
    cases u with
    | nil => exact absurd (List.cons.inj hfeed).1 hc
    | cons d u =>
      obtain ⟨t, rfl⟩ := ih (List.cons.inj hfeed).2
      exact ⟨d :: t, rfl⟩
  | @escaped c rest _ ih =>
    match u with
    | [] => exact absurd (List.cons.inj hfeed).1 (by decide)
    | [d] => exact ⟨[], by rw [← (List.cons.inj hfeed).1]; rfl⟩
    | d :: e :: u =>
      obtain ⟨t, rfl⟩ := ih (List.cons.inj (List.cons.inj hfeed).2).2
      exact ⟨d :: e :: t, rfl⟩

theorem Quoted.escaped_of_feed {q : Quoted} {u w : Text} (h : q.text = u ++ '\n' :: w) :
    w ≠ [] ∧ ∃ t, u = t ++ ['\\'] ∧ t ≠ [] := by
  cases u with
  | nil => exact absurd (List.cons.inj h).1 q.quote_ne_feed
  | cons d u =>
    have hcontent := (List.cons.inj h).2
    rcases List.eq_nil_or_concat w with rfl | ⟨w, e, rfl⟩
    · have := (List.append_inj' hcontent rfl).2
      exact absurd (List.cons.inj this).1 q.quote_ne_feed
    · have hconcat : q.content ++ [q.quote] = (u ++ '\n' :: w) ++ [e] := by simpa using hcontent
      have hinside : q.content = u ++ '\n' :: w := (List.append_inj' hconcat rfl).1
      obtain ⟨t, rfl⟩ := q.inner.escaped_of_feed hinside
      exact ⟨by simp, d :: t, rfl, by simp⟩

theorem head?_spell_ne (tokens : List Token) : (spell tokens).head? ≠ some 'd' := by
  induction tokens with
  | nil => simp
  | cons t more ih =>
    cases t with
    | blanks b =>
      cases hb : b.text with
      | nil => simpa [Token.text, hb] using ih
      | cons c cs =>
        have hblank := b.blank c (by simp [hb])
        intro h
        obtain rfl : c = 'd' := by simpa [Token.text, hb] using h
        exact absurd hblank (by decide)
    | mark m => cases m <;> simp [Token.text, Mark.char]
    | literal q =>
      intro h
      have hquote : q.quote = 'd' := by simpa [Token.text, Quoted.text] using h
      rcases q.quote_eq with h | h <;> rw [h] at hquote <;> exact absurd hquote (by decide)
    | function =>
      intro h
      have hf : some 'f' = some 'd' := h
      exact absurd hf (by decide)

theorem mem_placed_cons {l : Literal} {start : Nat} {t : Token} {more : List Token}
    (h : l ∈ placed (start + t.text.length) more) : l ∈ placed start (t :: more) := by
  have happend := placed_append start [t] more
  rw [show spell [t] = t.text by simp] at happend
  rw [show t :: more = [t] ++ more from rfl, happend]
  exact List.mem_append_right _ h

/-- Only in a literal is a line feed that stands in the first token followed by `d`. -/
theorem exists_hiding_of_token {t : Token} {more : List Token} {u w : Text} (start : Nat)
    (ht : t.text = u ++ '\n' :: w) (hd : (w ++ spell more).head? = some 'd') :
    ∃ l ∈ placed start (t :: more), l.start < start + u.length + 1 ∧
      start + u.length + 1 < l.stop ∧ ∃ r, u = r ++ ['\\'] := by
  cases t with
  | blanks b =>
    have hblank : ∀ c ∈ w, Text.isBlank c = true := fun c hc =>
      b.blank c (by rw [show b.text = _ from ht]; simp [hc])
    cases w with
    | nil => exact absurd hd (head?_spell_ne more)
    | cons c w =>
      obtain rfl : c = 'd' := by simpa using hd
      exact absurd (hblank 'd' List.mem_cons_self) (by decide)
  | mark m =>
    have hm : '\n' ∈ [m.char] := by
      rw [show [m.char] = _ from ht]
      simp
    cases m <;> exact absurd hm (by decide)
  | literal q =>
    obtain ⟨hw, r, rfl, -⟩ := Quoted.escaped_of_feed (show q.text = _ from ht)
    have hlength := congrArg List.length (show q.text = _ from ht)
    have hpos := List.length_pos_iff.mpr hw
    refine ⟨q.place start, by simp, ?_, ?_, r, rfl⟩
    · show start < _
      omega
    · rw [Quoted.stop_place, hlength]
      simp
      omega
  | function =>
    have hf : '\n' ∈ functionWord := by
      rw [show functionWord = _ from ht]
      simp
    exact absurd hf (by decide)

/-- A line among the tokens that begins with `d` begins inside a literal. -/
theorem exists_hiding_of_spell {tokens : List Token} {u v : Text} (start : Nat)
    (hspell : spell tokens = u ++ '\n' :: v) (hv : v.head? = some 'd') :
    ∃ l ∈ placed start tokens, l.start < start + u.length + 1 ∧ start + u.length + 1 < l.stop ∧
      ∃ r, u = r ++ ['\\'] := by
  induction tokens generalizing start u with
  | nil => simp at hspell
  | cons t more ih =>
    rw [spell_cons] at hspell
    rcases List.append_eq_append_iff.mp hspell with ⟨as, rfl, hmore⟩ | ⟨bs, ht, hbs⟩
    · -- the line feed stands behind the first token
      obtain ⟨l, hl, hstart, hstop, r, rfl⟩ := ih (start + t.text.length) hmore
      refine ⟨l, mem_placed_cons hl, ?_, ?_, t.text ++ r, by simp⟩
      · simp at hstart ⊢
        omega
      · simp at hstop ⊢
        omega
    · cases bs with
      | nil =>
        obtain ⟨_, _, _, _, r, hr⟩ := ih start (u := []) hbs.symm
        simp at hr
      | cons c bs =>
        obtain ⟨rfl, rfl⟩ := List.cons.inj hbs
        exact exists_hiding_of_token start ht hv

/-! ## Lines inside a header -/

/-- A line inside a header that begins with `d` begins inside one of its literals. -/
theorem Shape.exists_hiding_of_text {s : Shape} {u v : Text} (line start : Nat)
    (htext : s.text = u ++ '\n' :: v) (hv : v.head? = some 'd') :
    ∃ l ∈ (s.header line start).literals, l.start < start + u.length + 1 ∧
      start + u.length + 1 < l.stop ∧ ∃ t, u = t ++ ['\\'] := by
  rw [Shape.literals_header]
  rcases List.append_eq_append_iff.mp htext with ⟨as, rfl, hspell⟩ | ⟨bs, hword, hbs⟩
  · obtain ⟨l, hl, hstart, hstop, t, rfl⟩ :=
      exists_hiding_of_spell (start + defineWord.length) hspell hv
    refine ⟨l, hl, ?_, ?_, defineWord ++ t, by simp⟩
    · simp at hstart ⊢
      omega
    · simp at hstop ⊢
      omega
  · exfalso
    cases bs with
    | nil =>
      obtain ⟨_, _, _, _, t, ht⟩ := exists_hiding_of_spell (u := []) start hbs.symm hv
      simp at ht
    | cons c bs =>
      have hfeed : '\n' ∈ defineWord := by
        rw [hword, ← (List.cons.inj hbs).1]
        simp
      exact absurd hfeed (by decide)

/-- **A line that opens a module behind the beginning of a header** begins behind the whole header or
inside one of its literals. -/
theorem Shape.hides_or_behind {s : Shape} {code front text front' rest' : Text} (line : Nat)
    (hcode : code = front ++ text) (hs : s.Starts text) (hopens : OpensAt code front' rest')
    (hlt : front.length < front'.length) :
    front.length + s.text.length ≤ front'.length ∨
      ∃ l ∈ (s.header line front.length).literals, l.Hides front' := by
  obtain ⟨rest, rfl, -⟩ := hs
  obtain ⟨gap, tail, -, hhead⟩ := hopens.head
  have hsplit : front ++ (s.text ++ rest) = front' ++ rest' := hcode.symm.trans hopens.split
  obtain ⟨mid, rfl, hmid⟩ := Lists.exists_append_of_length_le hsplit (Nat.le_of_lt hlt)
  rcases Nat.lt_or_ge mid.length s.text.length with hinside | hbehind
  · right
    -- The line begins inside the header: what it begins with is cut out of the header's text.
    have hcolumn : mid.getLast? = some '\n' := by
      rcases hopens.column with h | h
      · simp [h] at hlt
      · rw [List.getLast?_append] at h
        cases hlast : mid.getLast? with
        | none => simp [List.getLast?_eq_none_iff.mp hlast] at hlt
        | some c => rwa [hlast] at h
    obtain ⟨mid, rfl⟩ := List.getLast?_eq_some_iff.mp hcolumn
    obtain ⟨v, htext, hrest⟩ :=
      Lists.exists_append_of_length_le hmid.symm (Nat.le_of_lt hinside)
    have hv : v.head? = some 'd' := by
      cases v with
      | nil => simp [htext] at hinside
      | cons c v => exact congrArg some (List.cons.inj (hrest.symm.trans hhead)).1
    obtain ⟨l, hl, hstart, hstop, t, rfl⟩ :=
      s.exists_hiding_of_text line front.length (u := mid) (by simpa using htext) hv
    refine ⟨l, hl, ?_, ?_, front ++ t, by simp⟩
    · simp at hstart ⊢
      omega
    · simp at hstop ⊢
      omega
  · left
    simp
    omega

theorem OpensAt.length_lt_of_count_lt {code front rest front' rest' : Text}
    (hopens : OpensAt code front rest) (hopens' : OpensAt code front' rest')
    (hlt : front.count '\n' < front'.count '\n') : front.length < front'.length := by
  by_contra hle
  obtain ⟨mid, rfl, -⟩ := Lists.exists_append_of_length_le
    (hopens'.split.symm.trans hopens.split) (Nat.le_of_not_lt hle)
  rw [List.count_append] at hlt
  omega

/-- Of two headers of a text, the later one stands behind all literals of the earlier one, or one of
these hides it. -/
theorem hides_or_before {code : Text} {headers : List Header} (hscan : scan code = .ok headers)
    {h h' : Header} (hmem : h ∈ headers) (hmem' : h' ∈ headers) (hlt : h.line < h'.line) :
    (∀ l ∈ h.literals, ∀ l' ∈ h'.literals, l.stop ≤ l'.start) ∨
      ∃ l ∈ h.literals, ∃ front rest, OpensAt code front rest ∧ h'.line = front.count '\n' + 1 ∧
        l.Hides front := by
  obtain ⟨front, rest, hopens, s, hs, rfl⟩ := (mem_headers_iff hscan).mp hmem
  obtain ⟨front', rest', hopens', s', hs', rfl⟩ := (mem_headers_iff hscan).mp hmem'
  have hcount : front.count '\n' < front'.count '\n' := by
    have : front.count '\n' + 1 < front'.count '\n' + 1 := hlt
    omega
  have hlength := hopens.length_lt_of_count_lt hopens' hcount
  rcases Shape.hides_or_behind (front.count '\n' + 1) hopens.split hs hopens' hlength with
    hbehind | ⟨l, hl, hhides⟩
  · left
    intro l hl l' hl'
    have hstop := (Shape.bounds_of_mem_literals hl).2
    have hstart := (Shape.bounds_of_mem_literals hl').1
    omega
  · exact Or.inr ⟨l, hl, front', rest', hopens', rfl, hhides⟩

end Header

end AmdBundle
