import AmdBundle.Proofs.Document.Reading
import AmdBundle.Proofs.Document.Splice
import AmdBundle.Proofs.Header.Bare

/-!
# A header with keys in its literals

The derivation of a header stays one if the literals among its dependencies get other text that needs
no backslash. So the text with the keys in place is a header again.

* `Shape.relink` : the derivation with keys in place of the resources of its module;
* `Shape.spliced_relink` : its text is that of the header with the literals replaced;
* `Relinked`, `Shape.relinked` : what the two headers have to do with each other.
-/

set_option autoImplicit false

namespace AmdBundle

namespace Header

/-! ## Literals -/

/-- The key of the text of a literal in the header of a module. -/
def keyIn (moduleName content : Text) : Option Text :=
  ResourceKey.ofToken? moduleName (Text.trim Text.isBlank content)

/-- A key is made of characters that need no backslash if the module name and the token are. -/
theorem bare_of_keyIn {moduleName content k : Text} (hname : Bare moduleName)
    (hcontent : Bare content) (hk : keyIn moduleName content = some k) : Bare k := by
  have hdirective : ∀ d : Directive, Bare d.name.toList := by
    intro d
    cases d <;> decide
  refine ResourceKey.forall_mem_of_ofToken? (by decide) (by decide) (by decide) hdirective hname ?_ hk
  exact fun c hc => hcontent c (Text.mem_of_mem_trim hc)

/-- The literal with other text between its quotes, if that needs no backslash. -/
def Quoted.withContent (q : Quoted) (content : Text) : Quoted :=
  if h : Bare content then ⟨q.quote, content, q.quote_eq, h.inner q.quote_eq⟩ else q

/-- The literal in the header of a module, with its key if it has one. -/
def Quoted.relink (moduleName : Text) (q : Quoted) : Quoted :=
  match keyIn moduleName q.content with
  | some k => q.withContent k
  | none => q

theorem Quoted.quote_relink (moduleName : Text) (q : Quoted) :
    (q.relink moduleName).quote = q.quote := by
  unfold Quoted.relink
  split
  · unfold Quoted.withContent
    split <;> rfl
  · rfl

theorem Quoted.content_relink {moduleName : Text} {q : Quoted} (hname : Bare moduleName)
    (hq : Bare q.content) :
    (q.relink moduleName).content = (keyIn moduleName q.content).getD q.content := by
  unfold Quoted.relink
  split
  · next k hk =>
    rw [Quoted.withContent, dif_pos (bare_of_keyIn hname hq hk), hk]
    rfl
  · next hk =>
    rw [hk]
    rfl

theorem Quoted.bare_relink {moduleName : Text} {q : Quoted} (hname : Bare moduleName)
    (hq : Bare q.content) : Bare (q.relink moduleName).content := by
  rw [Quoted.content_relink hname hq]
  cases hk : keyIn moduleName q.content with
  | none => exact hq
  | some k => exact bare_of_keyIn hname hq hk

/-- A literal without escapes stands on one line. -/
theorem Quoted.count_feed {q : Quoted} (hq : Bare q.content) : q.text.count '\n' = 0 := by
  have hquote : '\n' ≠ q.quote := Ne.symm q.quote_ne_feed
  have hcontent : '\n' ∉ q.content := fun hc => (hq _ hc).2.1 rfl
  rw [List.count_eq_zero]
  simp [Quoted.text, hquote, hcontent]

/-! ## Tokens -/

def Token.relink (moduleName : Text) : Token → Token
  | literal q => literal (q.relink moduleName)
  | t => t

section
variable {moduleName : Text} {tokens : List Token}

theorem BareTokens.tail {t : Token} (h : BareTokens (t :: tokens)) : BareTokens tokens :=
  fun q hq => h q (List.mem_cons_of_mem _ hq)

theorem BareTokens.relink (hname : Bare moduleName) (h : BareTokens tokens) :
    BareTokens (tokens.map (Token.relink moduleName)) := by
  intro q hq
  obtain ⟨t, ht, hrelink⟩ := List.mem_map.mp hq
  cases t with
  | literal q' =>
    obtain rfl : q'.relink moduleName = q := Token.literal.inj hrelink
    exact Quoted.bare_relink hname (h q' ht)
  | blanks b => cases hrelink
  | mark m => cases hrelink
  | function => cases hrelink

theorem count_spell_relink (hname : Bare moduleName) (h : BareTokens tokens) :
    (spell (tokens.map (Token.relink moduleName))).count '\n' = (spell tokens).count '\n' := by
  induction tokens with
  | nil => rfl
  | cons t tokens ih =>
    rw [List.map_cons, spell_cons, spell_cons, List.count_append, List.count_append, ih h.tail]
    cases t with
    | literal q =>
      have hq := h q List.mem_cons_self
      have hrelink : (q.relink moduleName).text.count '\n' = q.text.count '\n' := by
        rw [Quoted.count_feed hq, Quoted.count_feed (Quoted.bare_relink hname hq)]
      exact congrArg (· + _) hrelink
    | blanks b => rfl
    | mark m => rfl
    | function => rfl

theorem forall₂_placed_relink (hname : Bare moduleName) (h : BareTokens tokens) (start start' : Nat) :
    List.Forall₂ (fun l l' => l'.quote = l.quote ∧
        l'.content = (keyIn moduleName l.content).getD l.content)
      (placed start tokens) (placed start' (tokens.map (Token.relink moduleName))) := by
  induction tokens generalizing start start' with
  | nil => exact .nil
  | cons t tokens ih =>
    cases t with
    | literal q =>
      have hq := h q List.mem_cons_self
      exact .cons ⟨q.quote_relink moduleName, Quoted.content_relink hname hq⟩ (ih h.tail _ _)
    | blanks b => exact ih h.tail _ _
    | mark m => exact ih h.tail _ _
    | function => exact ih h.tail _ _

end

/-! ## Headers -/

def Item.relink (moduleName : Text) (i : Item) : Item :=
  { i with literal := i.literal.relink moduleName }

def Listing.relink (moduleName : Text) : Listing → Listing
  | empty gap => empty gap
  | items first more => items (first.relink moduleName) (more.map (Item.relink moduleName))

theorem Listing.tokens_relink (moduleName : Text) (d : Listing) :
    (d.relink moduleName).tokens = d.tokens.map (Token.relink moduleName) := by
  cases d with
  | empty gap => rfl
  | items first more =>
    simp only [Listing.relink, Listing.tokens, List.map_append, List.flatMap_map, List.map_flatMap]
    rfl

namespace Shape

/-- The header with keys in place of its resources. -/
def relink (s : Shape) : Shape :=
  { s with dependencies := s.dependencies.relink s.name.literal.content }

theorem tokens_relink (s : Shape) : s.relink.tokens =
    s.front ++ s.dependencies.tokens.map (Token.relink s.name.literal.content) ++ s.back := by
  rw [← Listing.tokens_relink]
  rfl

theorem bare_name {s : Shape} (h : s.Bare) : Header.Bare s.name.literal.content :=
  h _ (by simp [Shape.tokens, Shape.front, Item.tokens])

theorem bare_dependencies {s : Shape} (h : s.Bare) : BareTokens s.dependencies.tokens :=
  fun q hq => h q (by simp [Shape.tokens, hq])

theorem bare_relink {s : Shape} (h : s.Bare) : s.relink.Bare := by
  intro q hq
  rw [tokens_relink] at hq
  rcases List.mem_append.mp hq with hq | hq
  · rcases List.mem_append.mp hq with hq | hq
    · exact h q (by simp [Shape.tokens, hq])
    · exact (bare_dependencies h).relink (bare_name h) q hq
  · exact h q (by simp [Shape.tokens, hq])

theorem count_text_relink {s : Shape} (h : s.Bare) :
    s.relink.text.count '\n' = s.text.count '\n' := by
  have hcount := count_spell_relink (bare_name h) (bare_dependencies h)
  rw [Shape.text, Shape.text, tokens_relink, Shape.tokens]
  simp only [spell_append, List.count_append, hcount]

end Shape

end Header

/-! ## What becomes of a header -/

/-- The second header is the first one with keys: it stands on the same line and has the same name,
and every dependency that is a resource has its key between the quotes it had; the others are
untouched. -/
structure Relinked (h h' : Header) : Prop where
  line : h'.line = h.line
  name : h'.name.quote = h.name.quote ∧ h'.name.content = h.name.content
  dependencies : List.Forall₂ (fun l l' => l'.quote = l.quote ∧
    l'.content = (Document.keyOf? h l).getD l.content) h.dependencies h'.dependencies

namespace Header
open Document

theorem Shape.relinked {s : Shape} (h : s.Bare) (line start start' : Nat) :
    Relinked (s.header line start) (s.relink.header line start') := by
  refine ⟨rfl, ⟨rfl, rfl⟩, ?_⟩
  show List.Forall₂ _ (placed _ s.dependencies.tokens) (placed _ s.relink.dependencies.tokens)
  rw [show s.relink.dependencies = s.dependencies.relink s.name.literal.content from rfl,
    Listing.tokens_relink]
  exact forall₂_placed_relink (bare_name h) (bare_dependencies h) _ _

/-- The literals among some tokens that have to be replaced. -/
def rewritesAmong (moduleName : Text) (start : Nat) (tokens : List Token) : List Rewrite :=
  (placed start tokens).filterMap fun l => (keyIn moduleName l.content).map fun key => ⟨l, key⟩

theorem rewritesOf_header (s : Shape) (line start : Nat) : rewritesOf (s.header line start) =
    rewritesAmong s.name.literal.content (s.listStart start) s.dependencies.tokens := rfl

/-- A literal in front of tokens is replaced if it has a key, and kept if it has none. -/
theorem spliced_literal {moduleName : Text} {q : Quoted} (hname : Bare moduleName)
    (hq : Bare q.content) {start : Nat} {tokens : List Token} {out : Text}
    (hmore : Spliced (start + q.text.length)
      (rewritesAmong moduleName (start + q.text.length) tokens) (spell tokens) out) :
    Spliced start (rewritesAmong moduleName start (.literal q :: tokens)) (q.text ++ spell tokens)
      ((q.relink moduleName).text ++ out) := by
  have hquote := q.quote_relink moduleName
  have hcontent := Quoted.content_relink hname hq
  cases hk : keyIn moduleName q.content with
  | none =>
    have hsame : (q.relink moduleName).text = q.text := by
      rw [Quoted.text, Quoted.text, hquote, hcontent, hk]
      rfl
    have hrewrites : rewritesAmong moduleName start (.literal q :: tokens) =
        rewritesAmong moduleName (start + q.text.length) tokens := by
      simp [rewritesAmong, Quoted.place, hk]
    rw [hrewrites, hsame]
    exact hmore.keep q.text
  | some k =>
    have hkey : (q.relink moduleName).text = (⟨q.place start, k⟩ : Rewrite).spelling := by
      rw [Quoted.text, hquote, hcontent, hk]
      rfl
    have hrewrites : rewritesAmong moduleName start (.literal q :: tokens) =
        ⟨q.place start, k⟩ :: rewritesAmong moduleName (start + q.text.length) tokens := by
      simp [rewritesAmong, Quoted.place, hk]
    rw [hrewrites, hkey]
    refine .replace [] rfl ?_
    rw [Quoted.stop_place]
    exact hmore

theorem spliced_spell {moduleName : Text} {tokens : List Token} (hname : Bare moduleName)
    (h : BareTokens tokens) (start : Nat) :
    Spliced start (rewritesAmong moduleName start tokens) (spell tokens)
      (spell (tokens.map (Token.relink moduleName))) := by
  induction tokens generalizing start with
  | nil => exact .done start []
  | cons t tokens ih =>
    have hmore := ih h.tail (start + t.text.length)
    rw [List.map_cons, spell_cons, spell_cons]
    cases t with
    | literal q => exact spliced_literal hname (h q List.mem_cons_self) hmore
    | blanks b => exact hmore.keep b.text
    | mark m => exact hmore.keep [m.char]
    | function => exact hmore.keep functionWord

/-- The text with keys is that of the header with its literals replaced. -/
theorem Shape.spliced_relink {s : Shape} (h : s.Bare) (line start : Nat) :
    Spliced start (rewritesOf (s.header line start)) s.text s.relink.text := by
  have hlist := spliced_spell (bare_name h) (bare_dependencies h) (s.listStart start)
  have hback := hlist.append (.done _ (spell s.back))
  have hall := hback.keep (defineWord ++ spell s.front)
  rw [List.append_nil, ← rewritesOf_header s line] at hall
  rw [Shape.text, Shape.text, tokens_relink, Shape.tokens]
  simpa only [spell_append, List.append_assoc] using hall

end Header

end AmdBundle
