import AmdBundle.Proofs.Script.Literal
import AmdBundle.Proofs.Text.Indent

/-!
# Template literals of a script

A script is read character by character. What a character means depends on whether it stands in a
comment, in a string, in the text of a template or in none of these; regular expressions are read like
other code, and a string that is not closed ends with its line. A substitution in a template is code
up to the brace that closes it, and may have templates of its own.

* `Reading`, `step`, `run` : what stands around the next character;
* `TemplateAt` : a template literal, from its opening to its closing backtick;
* `run_shift` : blanks behind a line feed never matter;
* `templateAt_shift_iff` : a script that is moved to the right has the same template literals, moved to
  the right.
-/

set_option autoImplicit false

namespace AmdBundle.Script
open Text (spaces shift shift_append shift_cons newLine)

/-! ## Reading a script -/

inductive Quote where
  | single
  | double
  deriving DecidableEq, Repr

def Quote.char : Quote → Char
  | single => '\''
  | double => '"'

inductive Mode where
  | code
  /-- Behind a slash that may begin a comment. -/
  | slash
  | lineComment
  | blockComment
  /-- Behind a star that may end a comment. -/
  | star
  | string (quote : Quote)
  | stringEscape (quote : Quote)
  | template
  | templateEscape
  /-- Behind a dollar sign that may begin a substitution. -/
  | dollar
  deriving DecidableEq, Repr

/-- Where the next character stands. -/
structure Reading where
  mode : Mode
  /-- For every substitution around it, the innermost first, how many braces are open there. -/
  braces : List Nat
  deriving DecidableEq, Repr

def Reading.start : Reading :=
  ⟨.code, []⟩

/-- Behind an opening brace of the code. -/
def openBrace : List Nat → Reading
  | [] => ⟨.code, []⟩
  | n :: more => ⟨.code, (n + 1) :: more⟩

/-- Behind a closing brace of the code, which may be the end of a substitution. -/
def closeBrace : List Nat → Reading
  | [] => ⟨.code, []⟩
  | 0 :: more => ⟨.template, more⟩
  | (n + 1) :: more => ⟨.code, n :: more⟩

def stepCode (braces : List Nat) (c : Char) : Reading :=
  if c = '/' then ⟨.slash, braces⟩
  else if c = '\'' then ⟨.string .single, braces⟩
  else if c = '"' then ⟨.string .double, braces⟩
  else if c = '\x60' then ⟨.template, braces⟩
  else if c = '{' then openBrace braces
  else if c = '}' then closeBrace braces
  else ⟨.code, braces⟩

def stepTemplate (braces : List Nat) (c : Char) : Reading :=
  if c = '\\' then ⟨.templateEscape, braces⟩
  else if c = '\x60' then ⟨.code, braces⟩
  else if c = '$' then ⟨.dollar, braces⟩
  else ⟨.template, braces⟩

/-- Behind the next character. -/
def step (r : Reading) (c : Char) : Reading :=
  match r.mode with
  | .code => stepCode r.braces c
  | .slash =>
    if c = '/' then ⟨.lineComment, r.braces⟩
    else if c = '*' then ⟨.blockComment, r.braces⟩
    else stepCode r.braces c
  | .lineComment => if isLineEnd c then ⟨.code, r.braces⟩ else r
  | .blockComment => if c = '*' then ⟨.star, r.braces⟩ else r
  | .star =>
    if c = '/' then ⟨.code, r.braces⟩
    else if c = '*' then r
    else ⟨.blockComment, r.braces⟩
  | .string quote =>
    if c = '\\' then ⟨.stringEscape quote, r.braces⟩
    else if c = quote.char ∨ c = '\n' ∨ c = '\r' then ⟨.code, r.braces⟩
    else r
  | .stringEscape quote => ⟨.string quote, r.braces⟩
  | .template => stepTemplate r.braces c
  | .templateEscape => ⟨.template, r.braces⟩
  | .dollar => if c = '{' then ⟨.code, 0 :: r.braces⟩ else stepTemplate r.braces c

/-- Behind a text. -/
def run (r : Reading) (text : Text) : Reading :=
  text.foldl step r

@[simp] theorem run_nil (r : Reading) : run r [] = r := rfl

@[simp] theorem run_cons (r : Reading) (c : Char) (text : Text) :
    run r (c :: text) = run (step r c) text := rfl

theorem run_append (r : Reading) (a b : Text) : run r (a ++ b) = run (run r a) b :=
  List.foldl_append

/-! ## Template literals -/

/-- A template literal with that text between its backticks. -/
def template (content : Text) : Text :=
  '\x60' :: (content ++ ['\x60'])

/-- Behind `front` the script goes on with a template literal and `rest`. It opens outside of
comments, strings and the text of templates, and closes as soon as the script is back where it was. -/
structure TemplateAt (script front content rest : Text) : Prop where
  split : script = front ++ template content ++ rest
  opens : (run .start front).mode = .code ∨ (run .start front).mode = .slash
  inside : ∀ n ≤ content.length,
    run (run .start front) ('\x60' :: content.take n) ≠ ⟨.code, (run .start front).braces⟩
  closes : run (run .start front) (template content) = ⟨.code, (run .start front).braces⟩

instance (script front content rest : Text) : Decidable (TemplateAt script front content rest) :=
  decidable_of_iff ((script = front ++ template content ++ rest ∧
      ((run .start front).mode = .code ∨ (run .start front).mode = .slash)) ∧
      (∀ n ≤ content.length, run (run .start front) ('\x60' :: content.take n) ≠
        ⟨.code, (run .start front).braces⟩) ∧
      run (run .start front) (template content) = ⟨.code, (run .start front).braces⟩)
    ⟨fun ⟨⟨hsplit, hopens⟩, hinside, hcloses⟩ => ⟨hsplit, hopens, hinside, hcloses⟩,
      fun h => ⟨⟨h.split, h.opens⟩, h.inside, h.closes⟩⟩

/-! ## Moving a script to the right -/

/-- A blank behind a line feed does not matter: no mark and no escape goes on there. -/
theorem step_blank (r : Reading) : step (step r '\n') ' ' = step r '\n' := by
  obtain ⟨mode, braces⟩ := r
  cases mode with
  | string quote => cases quote <;> rfl
  | stringEscape quote => cases quote <;> rfl
  | _ => rfl

theorem run_blanks (r : Reading) (k : Nat) : run (step r '\n') (spaces k) = step r '\n' := by
  induction k with
  | zero => rfl
  | succ k ih =>
    have hspaces : spaces (k + 1) = ' ' :: spaces k := rfl
    rw [hspaces, run_cons, step_blank, ih]

/-- **A script that is moved to the right is read in the same way.** -/
theorem run_shift (k : Nat) (r : Reading) (text : Text) : run r (shift k text) = run r text := by
  induction text generalizing r with
  | nil => rfl
  | cons c text ih =>
    by_cases hc : c = '\n'
    · subst hc
      rw [Text.shift_cons_feed, run_cons, run_append, run_blanks, ih, run_cons]
    · rw [shift_cons hc, run_cons, ih, run_cons]

/-- Nor is there another reading within the blanks. -/
theorem exists_run_take (k : Nat) (r : Reading) (text : Text) {n : Nat}
    (hn : n ≤ (shift k text).length) :
    ∃ m ≤ text.length, run r ((shift k text).take n) = run r (text.take m) := by
  induction text generalizing r n with
  | nil => exact ⟨0, Nat.le_refl 0, by rw [Nat.le_zero.mp hn, List.take_zero, List.take_zero]⟩
  | cons c text ih =>
    cases n with
    | zero => exact ⟨0, Nat.zero_le _, rfl⟩
    | succ n =>
      by_cases hc : c = '\n'
      · subst hc
        rw [Text.shift_cons_feed] at hn ⊢
        rw [List.take_succ_cons, run_cons, List.take_append]
        have hlength : (spaces k).length = k := List.length_replicate
        by_cases hle : n ≤ k
        · refine ⟨1, Nat.succ_le_succ (Nat.zero_le _), ?_⟩
          have hblanks : (spaces k).take n = spaces n := by
            rw [spaces, List.take_replicate, Nat.min_eq_left hle, spaces]
          rw [hblanks, hlength, Nat.sub_eq_zero_of_le hle, List.take_zero, List.append_nil, run_blanks]
          rfl
        · have hle : n - k ≤ (shift k text).length := by
            rw [List.length_cons, List.length_append, hlength] at hn
            omega
          obtain ⟨m, hm, hrun⟩ := ih (step r '\n') hle
          refine ⟨m + 1, Nat.succ_le_succ hm, ?_⟩
          rw [List.take_of_length_le (by rw [hlength]; omega), run_append, run_blanks, hlength, hrun,
            List.take_succ_cons, run_cons]
      · rw [shift_cons hc] at hn ⊢
        obtain ⟨m, hm, hrun⟩ := ih (step r c) (Nat.le_of_succ_le_succ hn)
        exact ⟨m + 1, Nat.succ_le_succ hm, by
          rw [List.take_succ_cons, run_cons, hrun, List.take_succ_cons, run_cons]⟩

/-- What stands around a character of a script that was moved to the right was moved there. -/
theorem exists_of_shift_eq_append {k : Nat} {c : Char} (hfeed : c ≠ '\n') (hblank : c ≠ ' ')
    {text front rest : Text} (h : shift k text = front ++ c :: rest) :
    ∃ front' rest', text = front' ++ c :: rest' ∧ front = shift k front' ∧ rest = shift k rest' := by
  induction text generalizing front with
  | nil => simp [shift, Text.replaceChar] at h
  | cons d text ih =>
    by_cases hd : d = '\n'
    · subst hd
      rw [Text.shift_cons_feed] at h
      cases front with
      | nil => exact absurd (List.cons.inj h).1.symm hfeed
      | cons e front =>
        obtain ⟨rfl, hmore⟩ := List.cons.inj h
        have hfront : ∃ before, front = spaces k ++ before ∧ shift k text = before ++ c :: rest := by
          rcases List.append_eq_append_iff.mp hmore with hmid | ⟨mid, hspaces, hmid⟩
          · exact hmid
          · cases mid with
            | nil => exact ⟨[], by simpa using hspaces.symm, hmid.symm⟩
            | cons e mid =>
              have hmem : c ∈ spaces k := by
                rw [hspaces, (List.cons.inj hmid).1]
                simp
              exact absurd (List.mem_replicate.mp hmem).2 hblank
        obtain ⟨before, rfl, hbefore⟩ := hfront
        obtain ⟨front', rest', rfl, rfl, rfl⟩ := ih hbefore
        exact ⟨'\n' :: front', rest', rfl, (Text.shift_cons_feed k front').symm, rfl⟩
    · rw [shift_cons hd] at h
      cases front with
      | nil =>
        obtain ⟨rfl, rfl⟩ := List.cons.inj h
        exact ⟨[], text, rfl, rfl, rfl⟩
      | cons e front =>
        obtain ⟨rfl, hmore⟩ := List.cons.inj h
        obtain ⟨front', rest', rfl, rfl, rfl⟩ := ih hmore
        exact ⟨d :: front', rest', rfl, (shift_cons hd k front').symm, rfl⟩

theorem shift_template (k : Nat) (content : Text) :
    shift k (template content) = template (shift k content) := by
  have hend : shift k ['\x60'] = ['\x60'] := Text.shift_of_not_mem (by decide) k
  rw [template, shift_cons (by decide), shift_append, hend, template]

section
variable {script front content rest : Text}

theorem TemplateAt.shift (h : TemplateAt script front content rest) (k : Nat) :
    TemplateAt (shift k script) (shift k front) (shift k content) (shift k rest) where
  split := by rw [h.split, shift_append, shift_append, shift_template]
  opens := by
    rw [run_shift]
    exact h.opens
  inside n hn := by
    obtain ⟨m, hm, hrun⟩ := exists_run_take k (step (run .start front) '\x60') content hn
    rw [run_shift, run_cons, hrun]
    exact h.inside m hm
  closes := by
    rw [← shift_template, run_shift, run_shift]
    exact h.closes

/-- **A script that is moved to the right has the same template literals, moved to the right.** -/
theorem templateAt_shift_iff {k : Nat} : TemplateAt (Text.shift k script) front content rest ↔
    ∃ front' content' rest', TemplateAt script front' content' rest' ∧ front = Text.shift k front' ∧
      content = Text.shift k content' ∧ rest = Text.shift k rest' := by
  constructor
  · intro h
    have hsplit := h.split
    rw [template, List.append_assoc, List.cons_append, List.append_assoc, List.singleton_append] at hsplit
    obtain ⟨front', tail, rfl, rfl, htail⟩ := exists_of_shift_eq_append (by decide) (by decide) hsplit
    obtain ⟨content', rest', rfl, rfl, rfl⟩ :=
      exists_of_shift_eq_append (by decide) (by decide) htail.symm
    refine ⟨front', content', rest', ⟨by simp [template], ?_, fun n hn => ?_, ?_⟩, rfl, rfl, rfl⟩
    · simpa only [run_shift] using h.opens
    · have hcut : Text.shift k content' =
          Text.shift k (content'.take n) ++ Text.shift k (content'.drop n) := by
        rw [← shift_append, List.take_append_drop]
      have hinside := h.inside (Text.shift k (content'.take n)).length (by simp [hcut])
      rwa [hcut, List.take_left, run_shift, run_cons, run_shift, ← run_cons] at hinside
    · simpa only [← shift_template, run_shift] using h.closes
  · rintro ⟨front', content', rest', h, rfl, rfl, rfl⟩
    exact h.shift k

end

end AmdBundle.Script
