import AmdBundle.Proofs.Lists
import AmdBundle.Text.Lines

/-!
# Moving text to the right

* `replaceChar_append`, `replaceChar_of_not_mem` : a character is replaced wherever it stands;
* `indent_eq` : to indent a text is to put the margin in front of it and behind every line feed;
* `spaces`, `shift` : margins of blanks; `shift_eq_self_iff` : they change a text of several lines;
* `indent_append_feed`, `indent_intercalate` : texts between line feeds are indented one by one.
-/

set_option autoImplicit false

namespace AmdBundle.Text

theorem replaceChar_append (c : Char) (by' a b : Text) :
    replaceChar c by' (a ++ b) = replaceChar c by' a ++ replaceChar c by' b :=
  List.flatMap_append

theorem replaceChar_cons_self (c : Char) (by' text : Text) :
    replaceChar c by' (c :: text) = by' ++ replaceChar c by' text := by
  simp [replaceChar]

theorem replaceChar_of_not_mem {c : Char} {by' text : Text} (h : c ∉ text) :
    replaceChar c by' text = text := by
  induction text with
  | nil => rfl
  | cons d text ih =>
    obtain ⟨hd, htext⟩ := not_or.mp (List.mem_cons.not.mp h)
    have hmore : (text.flatMap fun d => if d = c then by' else [d]) = text := ih htext
    simp [replaceChar, Ne.symm hd, hmore]

/-- Lines with a margin, joined. -/
theorem intercalate_margin (margin : Text) {lines : List Text} (hne : lines ≠ [])
    (hlines : ∀ line ∈ lines, '\n' ∉ line) :
    ['\n'].intercalate (lines.map (margin ++ ·)) =
      margin ++ replaceChar '\n' ('\n' :: margin) (['\n'].intercalate lines) := by
  have hreplaced : lines.map (replaceChar '\n' ('\n' :: margin)) = lines :=
    (List.map_congr_left (g := id) fun line hline => replaceChar_of_not_mem (hlines line hline)).trans
      (List.map_id lines)
  have hsep : replaceChar '\n' ('\n' :: margin) ['\n'] = ['\n'] ++ margin := by simp [replaceChar]
  rw [Lists.intercalate_map_append _ _ hne,
    Lists.apply_intercalate rfl (replaceChar_append '\n' ('\n' :: margin)), hreplaced, hsep]

/-- A text is indented by its margin in front and behind every line feed. -/
theorem indent_eq (margin text : Text) :
    indent margin text = margin ++ replaceChar '\n' ('\n' :: margin) text := by
  have hjoin : ['\n'].intercalate (text.splitOn '\n') = text := List.intercalate_splitOn '\n'
  rw [indent, intercalate_margin margin (List.splitOn_ne_nil '\n' text)
    fun line hline => Lists.not_mem_of_mem_splitOn hline, hjoin]

/-! ## Margins of blanks -/

def spaces (n : Nat) : Text :=
  List.replicate n ' '

/-- A line feed and a margin. -/
def newLine (n : Nat) : Text :=
  '\n' :: spaces n

/-- The text with `k` blanks more behind every line feed. -/
def shift (k : Nat) (text : Text) : Text :=
  replaceChar '\n' (newLine k) text

theorem indent_spaces (k : Nat) (text : Text) :
    indent (spaces k) text = spaces k ++ shift k text :=
  indent_eq (spaces k) text

theorem shift_append (k : Nat) (a b : Text) : shift k (a ++ b) = shift k a ++ shift k b :=
  replaceChar_append _ _ a b

theorem shift_cons {c : Char} (hc : c ≠ '\n') (k : Nat) (text : Text) :
    shift k (c :: text) = c :: shift k text := by
  simp [shift, replaceChar, hc]

theorem shift_cons_feed (k : Nat) (text : Text) :
    shift k ('\n' :: text) = '\n' :: (spaces k ++ shift k text) := by
  simp [shift, newLine, replaceChar_cons_self]

theorem shift_of_not_mem {text : Text} (h : '\n' ∉ text) (k : Nat) : shift k text = text :=
  replaceChar_of_not_mem h

theorem length_shift (k : Nat) (text : Text) :
    (shift k text).length = text.length + k * text.count '\n' := by
  induction text with
  | nil => rfl
  | cons c text ih =>
    by_cases hc : c = '\n'
    · subst hc
      rw [shift_cons_feed, List.length_cons, List.length_append, ih, spaces, List.length_replicate,
        List.length_cons, List.count_cons_self, Nat.mul_add]
      omega
    · rw [shift_cons hc, List.length_cons, ih, List.length_cons, List.count_cons_of_ne hc]
      omega

/-- Only a text on one line stays as it is. -/
theorem shift_eq_self_iff {k : Nat} (hk : k ≠ 0) {text : Text} : shift k text = text ↔ '\n' ∉ text := by
  refine ⟨fun h hmem => ?_, fun h => shift_of_not_mem h k⟩
  have hlength := length_shift k text
  rw [h] at hlength
  have hcount := Nat.mul_pos (Nat.pos_of_ne_zero hk) (List.count_pos_iff.mpr hmem)
  omega

theorem shift_intercalate (k : Nat) (sep : Text) (parts : List Text) :
    shift k (sep.intercalate parts) = (shift k sep).intercalate (parts.map (shift k)) :=
  Lists.apply_intercalate rfl (shift_append k) sep parts

theorem shift_newLine (k n : Nat) : shift k (newLine n) = newLine (n + k) := by
  have hspaces : '\n' ∉ spaces n := by simp [spaces]
  have hsum : spaces k ++ spaces n = spaces (n + k) := by
    rw [spaces, spaces, List.replicate_append_replicate, Nat.add_comm]
    rfl
  unfold shift newLine
  rw [replaceChar_cons_self, replaceChar_of_not_mem hspaces, List.cons_append, hsum]

/-! ## Parts between line feeds -/

theorem indent_append_feed (margin a b : Text) :
    indent margin (a ++ '\n' :: b) = indent margin a ++ '\n' :: indent margin b := by
  simp [indent_eq, replaceChar_append, replaceChar_cons_self]

theorem indent_intercalate {margin : Text} {parts : List Text} (h : parts ≠ []) :
    indent margin (['\n'].intercalate parts) = ['\n'].intercalate (parts.map (indent margin)) := by
  induction parts with
  | nil => exact absurd rfl h
  | cons first more ih =>
    cases more with
    | nil => simp
    | cons second more =>
      rw [List.intercalate_cons_cons, List.append_assoc, List.singleton_append, indent_append_feed,
        ih (List.cons_ne_nil _ _)]
      simp

end AmdBundle.Text
