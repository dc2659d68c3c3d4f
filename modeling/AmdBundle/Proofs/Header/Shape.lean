import AmdBundle.Header
import Mathlib.Data.List.Basic

/-!
# The grammar of headers

A header is `define`, a bracket, the name of the module, a comma, the list of its dependencies, a
comma and `function`; white space may stand between any two of these. The name and the dependencies
are string literals.

The types below are the derivations of that grammar: a value of one of them cannot break a rule.

* `Blanks`, `Quoted`, `Item`, `Listing`, `Shape` : derivations, from white space to whole headers;
* `Shape.text` : what a derivation derives; `Shape.Starts` : does a text start with it;
* `placed` : the literals of some tokens with their places; `Shape.header` : the header that a
  derivation describes.
-/

set_option autoImplicit false

namespace AmdBundle.Header

/-! ## White space and literals -/

/-- A run of white space, possibly empty. -/
structure Blanks where
  text : Text
  blank : ∀ c ∈ text, Text.isBlank c = true

/-- What may stand between two quotes: a backslash takes the next character with it; the quote and
the line feed cannot stand on their own. -/
inductive Inner (quote : Char) : Text → Prop where
  | nil : Inner quote []
  | plain {c : Char} {rest : Text} (backslash : c ≠ '\\') (feed : c ≠ '\n') (other : c ≠ quote)
      (more : Inner quote rest) : Inner quote (c :: rest)
  | escaped (c : Char) {rest : Text} (more : Inner quote rest) : Inner quote ('\\' :: c :: rest)

/-- A string literal, wherever it stands. It ends at its first quote that no backslash takes. -/
structure Quoted where
  quote : Char
  content : Text
  quote_eq : quote = '"' ∨ quote = '\''
  inner : Inner quote content

/-- The literal as it is written. -/
def Quoted.text (q : Quoted) : Text :=
  q.quote :: (q.content ++ [q.quote])

/-- The literal behind so many characters. -/
def Quoted.place (q : Quoted) (start : Nat) : Literal :=
  ⟨start, q.quote, q.content⟩

/-! ## Tokens -/

/-- The marks between the parts of a header. -/
inductive Mark where
  | parenthesis
  | comma
  | bracket
  | closing

/-- The character of a mark. -/
def Mark.char : Mark → Char
  | parenthesis => '('
  | comma => ','
  | bracket => '['
  | closing => ']'

/-- The parts of a header behind its first word. -/
inductive Token where
  | blanks (b : Blanks)
  | mark (m : Mark)
  | literal (q : Quoted)
  | function

/-- The first word of a header. -/
def defineWord : Text := "define".toList

/-- The last word of a header. -/
def functionWord : Text := "function".toList

/-- The text of a token. -/
def Token.text : Token → Text
  | blanks b => b.text
  | mark m => [m.char]
  | literal q => q.text
  | function => functionWord

/-- The text of some tokens. -/
def spell (tokens : List Token) : Text :=
  tokens.flatMap Token.text

/-- The literals among some tokens, the first of which stands behind `start` characters. -/
def placed : Nat → List Token → List Literal
  | _, [] => []
  | start, .literal q :: more => q.place start :: placed (start + q.text.length) more
  | start, t :: more => placed (start + t.text.length) more

@[simp] theorem spell_nil : spell [] = [] := rfl

@[simp] theorem spell_cons (t : Token) (more : List Token) :
    spell (t :: more) = t.text ++ spell more := List.flatMap_cons

@[simp] theorem spell_append (a b : List Token) : spell (a ++ b) = spell a ++ spell b :=
  List.flatMap_append

@[simp] theorem placed_nil (start : Nat) : placed start [] = [] := rfl

@[simp] theorem placed_blanks (start : Nat) (b : Blanks) (more : List Token) :
    placed start (.blanks b :: more) = placed (start + b.text.length) more := rfl

@[simp] theorem placed_mark (start : Nat) (m : Mark) (more : List Token) :
    placed start (.mark m :: more) = placed (start + 1) more := rfl

@[simp] theorem placed_literal (start : Nat) (q : Quoted) (more : List Token) :
    placed start (.literal q :: more) = q.place start :: placed (start + q.text.length) more := rfl

@[simp] theorem placed_function (start : Nat) (more : List Token) :
    placed start (.function :: more) = placed (start + 8) more := rfl

theorem placed_append (start : Nat) (a b : List Token) :
    placed start (a ++ b) = placed start a ++ placed (start + (spell a).length) b := by
  induction a generalizing start with
  | nil => rfl
  | cons t a ih =>
    have hlength : start + t.text.length + (spell a).length =
        start + (spell (t :: a)).length := by simp; omega
    cases t with
    | literal q =>
      rw [List.cons_append, placed_literal, placed_literal, ih, List.cons_append]
      exact congrArg (fun n => _ :: (_ ++ placed n b)) hlength
    | blanks c => exact (ih _).trans (congrArg (fun n => _ ++ placed n b) hlength)
    | mark m => exact (ih _).trans (congrArg (fun n => _ ++ placed n b) hlength)
    | function => exact (ih _).trans (congrArg (fun n => _ ++ placed n b) hlength)

/-- A placed literal is spelled out among the tokens, and its place counts the characters before. -/
theorem exists_spell_of_mem_placed {l : Literal} {start : Nat} {tokens : List Token}
    (h : l ∈ placed start tokens) :
    ∃ a b, spell tokens = a ++ l.spelling ++ b ∧ l.start = start + a.length := by
  induction tokens generalizing start with
  | nil => cases h
  | cons t more ih =>
    rcases List.mem_append.mp (placed_append start [t] more ▸ h) with h | h
    · cases t with
      | literal q =>
        obtain rfl := List.mem_singleton.mp h
        exact ⟨[], spell more, rfl, rfl⟩
      | blanks b => cases h
      | mark m => cases h
      | function => cases h
    · obtain ⟨a, b, hspell, hstart⟩ := ih h
      refine ⟨t.text ++ a, b, by simp [hspell], ?_⟩
      rw [hstart]
      simp
      omega

theorem quote_eq_of_mem_placed {l : Literal} {start : Nat} {tokens : List Token}
    (h : l ∈ placed start tokens) : l.quote = '"' ∨ l.quote = '\'' := by
  induction tokens generalizing start with
  | nil => cases h
  | cons t more ih =>
    cases t with
    | literal q =>
      rcases List.mem_cons.mp h with rfl | h
      · exact q.quote_eq
      · exact ih h
    | blanks b => exact ih h
    | mark m => exact ih h
    | function => exact ih h

/-! ## Headers -/

/-- A literal with the white space on both sides. -/
structure Item where
  before : Blanks
  literal : Quoted
  behind : Blanks

/-- The tokens of a literal with its white space. -/
def Item.tokens (i : Item) : List Token :=
  [.blanks i.before, .literal i.literal, .blanks i.behind]

/-- What stands between the brackets of a list: white space only, or literals between commas. -/
inductive Listing where
  | empty (gap : Blanks)
  | items (first : Item) (more : List Item)

/-- The tokens of a list behind its opening bracket, with the closing one. -/
def Listing.tokens : Listing → List Token
  | empty gap => [.blanks gap, .mark .closing]
  | items first more =>
    first.tokens ++ (more.flatMap fun i => .mark .comma :: i.tokens) ++ [.mark .closing]

/-- A header up to its `function`: its name, its list, and the white space around its marks. -/
structure Shape where
  behindDefine : Blanks
  name : Item
  beforeList : Blanks
  dependencies : Listing
  behindList : Blanks
  beforeFunction : Blanks

namespace Shape

/-- The tokens between `define` and the dependencies. -/
def front (s : Shape) : List Token :=
  [.blanks s.behindDefine, .mark .parenthesis] ++ s.name.tokens ++
    [.mark .comma, .blanks s.beforeList, .mark .bracket]

/-- The tokens behind the dependencies. -/
def back (s : Shape) : List Token :=
  [.blanks s.behindList, .mark .comma, .blanks s.beforeFunction, .function]

/-- All tokens behind `define`. -/
def tokens (s : Shape) : List Token :=
  s.front ++ s.dependencies.tokens ++ s.back

/-- The text of a header. -/
def text (s : Shape) : Text :=
  defineWord ++ spell s.tokens

/-- Does a text start with this header? Its `function` must not go on as a longer name. -/
def Starts (s : Shape) (text : Text) : Prop :=
  ∃ rest, text = s.text ++ rest ∧ ∀ c ∈ rest.head?, isNameChar c = false

/-- Behind how many characters the name stands, if the header stands behind `start` of them. -/
def nameStart (s : Shape) (start : Nat) : Nat :=
  start + (defineWord ++ s.behindDefine.text ++ ['('] ++ s.name.before.text).length

/-- Behind how many characters the list of dependencies begins. -/
def listStart (s : Shape) (start : Nat) : Nat :=
  start + (defineWord ++ spell s.front).length

/-- The header that is derived, on its line and behind `start` characters. -/
def header (s : Shape) (line start : Nat) : Header :=
  ⟨line, s.name.literal.place (s.nameStart start),
    placed (s.listStart start) s.dependencies.tokens⟩

theorem nameStart_eq (s : Shape) (start : Nat) : s.nameStart start =
    start + defineWord.length + s.behindDefine.text.length + 1 + s.name.before.text.length := by
  simp [nameStart]
  omega

theorem listStart_eq (s : Shape) (start : Nat) :
    s.listStart start = start + defineWord.length + (spell s.front).length := by
  simp [listStart]
  omega

end Shape

end AmdBundle.Header
