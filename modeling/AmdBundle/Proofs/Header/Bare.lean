import AmdBundle.Proofs.Header.Nesting

/-!
# Literals without escapes

A literal without backslashes and quotes means what is written between its quotes, and it ends on its
line. Other such text can be put in its place.

* `Bare` : text that can stand between two quotes as it is; `Inner.bare`, `Bare.inner` : this is what
  stands in a literal without backslashes and quotes;
* `Shape.Bare` : the literals of a header are such; `Shape.opens_eq_false` : then no line inside the
  header opens a module.
-/

set_option autoImplicit false

namespace AmdBundle

/-- The literal has no backslash and no quote between its quotes. -/
def Literal.Plain (l : Literal) : Prop :=
  ∀ c ∈ l.content, c ≠ '\\' ∧ c ≠ '"' ∧ c ≠ '\''

-- The instance is named: there are so many characters that another one would try them all.
instance (l : Literal) : Decidable l.Plain :=
  List.decidableBAll _ l.content

namespace Header

/-- No character needs a backslash between two quotes. -/
def Bare (text : Text) : Prop :=
  ∀ c ∈ text, c ≠ '\\' ∧ c ≠ '\n' ∧ c ≠ '"' ∧ c ≠ '\''

instance (text : Text) : Decidable (Bare text) :=
  List.decidableBAll _ text

theorem Bare.inner {quote : Char} {text : Text} (hquote : quote = '"' ∨ quote = '\'')
    (h : Bare text) : Inner quote text := by
  induction text with
  | nil => exact .nil
  | cons c text ih =>
    obtain ⟨hc, htext⟩ := List.forall_mem_cons.mp h
    refine .plain hc.1 hc.2.1 ?_ (ih htext)
    rcases hquote with rfl | rfl
    · exact hc.2.2.1
    · exact hc.2.2.2

/-- What stands between two quotes without a backslash has no line feed. -/
theorem Inner.feed_not_mem {quote : Char} {text : Text} (h : Inner quote text) (hplain : '\\' ∉ text) :
    '\n' ∉ text := by
  induction h with
  | nil => simp
  | plain _ hfeed _ _ ih =>
    rw [List.mem_cons, not_or] at hplain ⊢
    exact ⟨Ne.symm hfeed, ih hplain.2⟩
  | escaped c _ _ => simp at hplain

theorem Quoted.bare {q : Quoted} {start : Nat} (hplain : (q.place start).Plain) : Bare q.content := by
  have hfeed : '\n' ∉ q.content := q.inner.feed_not_mem fun hc => (hplain _ hc).1 rfl
  intro c hc
  obtain ⟨hbackslash, hquotes⟩ := hplain c hc
  exact ⟨hbackslash, fun h => hfeed (h ▸ hc), hquotes⟩

/-! ## Tokens -/

/-- The literals among some tokens need no backslash. -/
def BareTokens (tokens : List Token) : Prop :=
  ∀ q, .literal q ∈ tokens → Bare q.content

theorem exists_placed_of_mem {q : Quoted} {tokens : List Token} (h : .literal q ∈ tokens)
    (start : Nat) : ∃ n, q.place n ∈ placed start tokens := by
  obtain ⟨a, b, rfl⟩ := List.append_of_mem h
  exact ⟨_, by rw [placed_append, placed_literal]; exact List.mem_append_right _ List.mem_cons_self⟩

/-- Nothing but the literals of a header could have a backslash. -/
theorem backslash_not_mem_text {t : Token} (h : ∀ q, t = .literal q → Bare q.content) :
    '\\' ∉ t.text := by
  cases t with
  | blanks b =>
    intro hc
    exact absurd (b.blank _ hc) (by decide)
  | mark m => cases m <;> simp [Token.text, Mark.char]
  | literal q =>
    have hcontent : '\\' ∉ q.content := fun hc => (h q rfl _ hc).1 rfl
    have hquote : '\\' ≠ q.quote := Ne.symm q.quote_ne_backslash
    simp [Token.text, Quoted.text, hcontent, hquote]
  | function =>
    show '\\' ∉ functionWord
    decide

theorem backslash_not_mem_spell {tokens : List Token} (h : BareTokens tokens) :
    '\\' ∉ spell tokens := by
  intro hc
  obtain ⟨t, ht, hc⟩ := List.mem_flatMap.mp hc
  exact backslash_not_mem_text (fun q hq => h q (hq ▸ ht)) hc

/-! ## Headers -/

namespace Shape

/-- The literals of the header need no backslash. -/
def Bare (s : Shape) : Prop :=
  BareTokens s.tokens

theorem bare_of_plain {s : Shape} {line start : Nat}
    (h : ∀ l ∈ (s.header line start).literals, l.Plain) : s.Bare := by
  intro q hq
  obtain ⟨n, hn⟩ := exists_placed_of_mem hq (start + defineWord.length)
  rw [← s.literals_header line start] at hn
  exact Quoted.bare (h _ hn)

theorem backslash_not_mem {s : Shape} (h : s.Bare) : '\\' ∉ s.text := by
  rw [Shape.text, List.mem_append, not_or]
  exact ⟨by decide, backslash_not_mem_spell h⟩

theorem getLast?_text (s : Shape) : s.text.getLast? = some 'n' := by
  have htokens : s.tokens = s.front ++ s.dependencies.tokens ++
      [.blanks s.behindList, .mark .comma, .blanks s.beforeFunction] ++ [.function] := by
    simp [Shape.tokens, Shape.back]
  rw [Shape.text, htokens, spell_append, ← List.append_assoc, List.getLast?_append]
  rfl

/-- **No line inside a header without escapes opens a module.** -/
theorem opens_eq_false {s : Shape} (h : s.Bare) {u v : Text} (htext : s.text = u ++ '\n' :: v)
    (rest : Text) : opens (v ++ rest) = false := by
  have hv : v ≠ [] := by
    rintro rfl
    have hlast := s.getLast?_text
    rw [htext] at hlast
    simp at hlast
  by_contra hopens
  obtain ⟨gap, tail, -, hhead⟩ := opens_eq_true_iff.mp (Bool.not_eq_false _ ▸ hopens)
  obtain ⟨c, v, rfl⟩ := List.exists_cons_of_ne_nil hv
  obtain rfl : c = 'd' := (List.cons.inj hhead).1
  obtain ⟨_, -, -, -, t, rfl⟩ := s.exists_hiding_of_text 0 0 htext rfl
  exact backslash_not_mem h (by simp [htext])

end Shape

end Header

end AmdBundle
