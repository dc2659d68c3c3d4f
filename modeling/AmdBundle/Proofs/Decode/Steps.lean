import AmdBundle.Decode.Choice
import AmdBundle.Decode.Record
import AmdBundle.Proofs.Json.Frame

/-!
# What a decoder takes

How each decoder comes to a value, from the text it finds and the value it returns.

* `nextItem_first_eq_ok`, `nextKey_first_eq_ok` and those of later items and keys : what comes next;
* `refuse_ne_ok` : nothing is taken of a value that is refused;
* `readCount_eq_ok`, `optional_eq_ok`, `list_eq_ok`, `choice_eq_ok`, `record_eq_ok` : a value of each kind;
* `readMembers_eq_ok` : one more member of a record; `readItems_eq_ok` : one more field of a record that is
  written as a list.
-/

set_option autoImplicit false

namespace AmdBundle
open Json (skipSpace)

namespace Json
variable {text rest : Text} {next : Next}

/-! ## Lists and objects -/

theorem nextItem_first_eq_ok (h : nextItem true text = .ok next) :
    (∃ rest, skipSpace text = ']' :: rest ∧ next = .done (']' :: rest)) ∨
      ∃ c rest, skipSpace text = c :: rest ∧ c ≠ ']' ∧ next = .more (c :: rest) := by
  unfold nextItem at h
  split at h
  · cases h
  · next c rest heq =>
    split at h
    · next hc => exact .inl ⟨rest, by rw [heq, hc], by rw [← Except.ok.inj h, hc]⟩
    · next hc => exact .inr ⟨c, rest, heq, hc, (Except.ok.inj h).symm⟩

theorem nextItem_later_eq_ok (h : nextItem false text = .ok next) :
    (∃ rest, skipSpace text = ']' :: rest ∧ next = .done (']' :: rest)) ∨
      ∃ front, skipSpace text = ',' :: front ∧ next = .more (skipSpace front) := by
  unfold nextItem at h
  split at h
  · cases h
  next c rest heq =>
  split at h
  · next hc => exact .inl ⟨rest, by rw [heq, hc], by rw [← Except.ok.inj h, hc]⟩
  rw [if_neg Bool.false_ne_true] at h
  split at h
  · next hc =>
    refine .inr ⟨rest, by rw [heq, hc], ?_⟩
    split at h
    · cases h
    · next hrest =>
      split at h
      · cases h
      · rw [hrest, ← Except.ok.inj h]
  · cases h

theorem closeList_eq_ok (h : closeList text = .ok rest) : skipSpace text = ']' :: rest := by
  unfold closeList at h
  split at h
  · cases h
  next heq =>
  split at h
  · next hc => rw [heq, hc, Except.ok.inj h]
  split at h
  · split at h <;> cases h
  · cases h

theorem nextKey_first_eq_ok (h : nextKey true text = .ok next) :
    (∃ rest, skipSpace text = '}' :: rest ∧ next = .done ('}' :: rest)) ∨
      ∃ rest, skipSpace text = '"' :: rest ∧ next = .more ('"' :: rest) := by
  unfold nextKey at h
  split at h
  · cases h
  next c rest heq =>
  split at h
  · next hc => exact .inl ⟨rest, by rw [heq, hc], by rw [← Except.ok.inj h, hc]⟩
  rw [if_pos rfl] at h
  split at h
  · next hc => exact .inr ⟨rest, by rw [heq, hc], by rw [← Except.ok.inj h, hc]⟩
  · cases h

theorem nextKey_later_eq_ok (h : nextKey false text = .ok next) :
    (∃ rest, skipSpace text = '}' :: rest ∧ next = .done ('}' :: rest)) ∨
      ∃ front rest, skipSpace text = ',' :: front ∧ skipSpace front = '"' :: rest ∧
        next = .more ('"' :: rest) := by
  unfold nextKey at h
  split at h
  · cases h
  next c rest heq =>
  split at h
  · next hc => exact .inl ⟨rest, by rw [heq, hc], by rw [← Except.ok.inj h, hc]⟩
  rw [if_neg Bool.false_ne_true] at h
  split at h
  · next hc =>
    split at h
    · cases h
    · next d more hrest =>
      split at h
      · next hd =>
        exact .inr ⟨rest, more, by rw [heq, hc], by rw [hrest, hd], by rw [← Except.ok.inj h, hd]⟩
      · cases h
  · cases h

theorem closeObject_eq_ok (h : closeObject text = .ok rest) : skipSpace text = '}' :: rest := by
  unfold closeObject at h
  split at h
  · cases h
  next heq =>
  split at h
  · next hc => rw [heq, hc, Except.ok.inj h]
  · cases h

end Json

namespace Decoder

variable {σ α β : Type} {text rest : Text}

/-! ## Single values -/

theorem refuse_ne_ok {wanted : Wanted} {found : α × Text} : refuse wanted text ≠ .ok found := by
  intro h
  unfold refuse at h
  split at h
  · cases h
  split at h
  · cases h
  · cases h
  split at h
  · cases h
  split at h <;> cases h

theorem map_eq_ok {d : Decoder α} {f : α → β} {depth : Nat} {b : β}
    (h : (d.map f).read depth text = .ok (b, rest)) : ∃ a, d.read depth text = .ok (a, rest) ∧ f a = b := by
  obtain ⟨⟨a, last⟩, hfound, heq⟩ := Outcome.map_eq_ok_iff.mp h
  obtain ⟨hb, rfl⟩ := Prod.mk.inj heq
  exact ⟨a, hfound, hb⟩

theorem readText_eq_ok {wanted : Wanted} {value : Text} (h : readText wanted text = .ok (value, rest)) :
    ∃ front, skipSpace text = '"' :: front ∧ Json.readString front = .ok (value, rest) := by
  unfold readText at h
  split at h
  · next hquote => exact ⟨_, hquote, h⟩
  · exact absurd h refuse_ne_ok

/-- A word behind its first letter. -/
theorem word_eq_ok {w front : Text} {a b : α}
    (h : (Json.word w front).map (fun rest => (b, rest)) = .ok (a, rest)) :
    Json.word w front = .ok rest ∧ a = b := by
  obtain ⟨last, hword, heq⟩ := Outcome.map_eq_ok_iff.mp h
  obtain ⟨rfl, rfl⟩ := Prod.mk.inj heq
  exact ⟨hword, rfl⟩

/-- A number that is a count. -/
theorem readCount_eq_ok {n : Nat} (h : readCount text = .ok (n, rest)) :
    ∃ c front x, skipSpace text = c :: front ∧ countOf x = .ok n ∧
      (c = '-' ∧ Json.readNumber false front = .ok (x, rest) ∨
        c.isDigit = true ∧ Json.readNumber true (c :: front) = .ok (x, rest)) := by
  unfold readCount at h
  split at h
  · exact absurd h refuse_ne_ok
  next c front hstart =>
  split at h
  · next hc =>
    split at h
    · next hminus =>
      obtain ⟨⟨x, last⟩, hnumber, h⟩ := Outcome.bind_eq_ok_iff.mp h
      dsimp only at h
      split at h
      · next hcount =>
        obtain ⟨rfl, rfl⟩ := Prod.mk.inj (Except.ok.inj h)
        exact ⟨c, front, x, hstart, hcount, .inl ⟨hminus, hnumber⟩⟩
      · cases h
    · next hminus =>
      obtain ⟨⟨x, last⟩, hnumber, h⟩ := Outcome.bind_eq_ok_iff.mp h
      dsimp only at h
      split at h
      · next hcount =>
        obtain ⟨rfl, rfl⟩ := Prod.mk.inj (Except.ok.inj h)
        exact ⟨c, front, x, hstart, hcount, .inr ⟨hc.resolve_left hminus, hnumber⟩⟩
      · cases h
  · exact absurd h refuse_ne_ok

/-! ## Values around others -/

theorem optional_eq_ok {d : Decoder α} {depth : Nat} {value : Option α}
    (h : (optional d).read depth text = .ok (value, rest)) :
    (∃ front, skipSpace text = 'n' :: front ∧ Json.word ['u', 'l', 'l'] front = .ok rest ∧ value = none) ∨
      ∃ a, d.read depth (skipSpace text) = .ok (a, rest) ∧ value = some a := by
  unfold optional at h
  dsimp only at h
  split at h
  · next hstart =>
    obtain ⟨hword, hvalue⟩ := word_eq_ok h
    exact .inl ⟨_, hstart, hword, hvalue⟩
  · obtain ⟨a, hread, hvalue⟩ := map_eq_ok h
    exact .inr ⟨a, hread, hvalue.symm⟩

theorem exists_of_deeper {depth : Nat} {read : Nat → Except Json.Fault α} {a : α}
    (h : deeper depth text read = .ok a) : ∃ less, read less = .ok a := by
  cases depth with
  | zero => cases h
  | succ depth => exact ⟨depth, h⟩

theorem list_eq_ok {d : Decoder α} {depth : Nat} {all : List α}
    (h : (list d).read depth text = .ok (all, rest)) :
    ∃ front less, skipSpace text = '[' :: front ∧ Json.items (d.read less) front = .ok (all, rest) := by
  unfold list at h
  dsimp only at h
  split at h
  · next hbracket =>
    obtain ⟨less, hitems⟩ := exists_of_deeper h
    exact ⟨_, less, hbracket, hitems⟩
  · exact absurd h refuse_ne_ok

/-! ## Choices -/

theorem readNothing_eq_ok {nothing : Unit} (h : readNothing text = .ok (nothing, rest)) :
    ∃ front, skipSpace text = 'n' :: front ∧ Json.word ['u', 'l', 'l'] front = .ok rest := by
  unfold readNothing at h
  split at h
  · next hstart => exact ⟨_, hstart, (word_eq_ok h).1⟩
  · exact absurd h refuse_ne_ok

theorem readName_eq_ok {cs : Choices α} {wanted : Wanted} {a : α}
    (h : readName cs wanted text = .ok (a, rest)) :
    ∃ name front, skipSpace text = '"' :: front ∧ Json.readString front = .ok (name, rest) := by
  obtain ⟨⟨name, last⟩, htext, h⟩ := Outcome.bind_eq_ok_iff.mp h
  obtain ⟨front, hquote, hstring⟩ := readText_eq_ok htext
  dsimp only at h
  split at h
  · obtain ⟨-, rfl⟩ := Prod.mk.inj (Except.ok.inj h)
    exact ⟨name, front, hquote, hstring⟩
  · cases h

theorem readNamed_eq_ok {cs : Choices α} {a : α} (h : readNamed cs text = .ok (a, rest)) :
    ∃ behindKey front behind, readName cs .choiceName text = .ok (a, behindKey) ∧
      Json.colon behindKey = .ok front ∧ readNothing front = .ok ((), behind) ∧
      skipSpace behind = '}' :: rest := by
  obtain ⟨⟨b, behindKey⟩, hname, h⟩ := Outcome.bind_eq_ok_iff.mp h
  obtain ⟨front, hcolon, h⟩ := Outcome.bind_eq_ok_iff.mp h
  obtain ⟨⟨nothing, behind⟩, hnothing, h⟩ := Outcome.bind_eq_ok_iff.mp h
  dsimp only at h
  split at h
  · cases h
  next c last hend =>
  split at h
  · next hc =>
    obtain ⟨rfl, rfl⟩ := Prod.mk.inj (Except.ok.inj h)
    exact ⟨behindKey, front, behind, hname, hcolon, hnothing, by rw [hend, hc]⟩
  · cases h

theorem choice_eq_ok {cs : Choices α} {depth : Nat} {a : α}
    (h : (choice cs).read depth text = .ok (a, rest)) :
    (∃ front name, skipSpace text = '"' :: front ∧ Json.readString front = .ok (name, rest)) ∨
      ∃ front, skipSpace text = '{' :: front ∧ readNamed cs front = .ok (a, rest) := by
  unfold choice at h
  dsimp only at h
  split at h
  · cases h
  · next hquote =>
    obtain ⟨name, front, hfront, hstring⟩ := readName_eq_ok h
    rw [Json.skipSpace_cons (c := '"') rfl] at hfront
    obtain ⟨-, rfl⟩ := List.cons.inj hfront
    exact .inl ⟨_, name, hquote, hstring⟩
  · next hbrace =>
    obtain ⟨less, hnamed⟩ := exists_of_deeper h
    exact .inr ⟨_, hbrace, hnamed⟩
  · cases h

/-! ## Records -/

section
variable {shape : Shape σ α} {depth : Nat} {s s' : σ}

/-- A key begins the next member. It belongs to a field, whose value is read, or to no field, and what it
stands for is skipped. -/
theorem readMembers_eq_ok {fuel : Nat} {first : Bool} {seen : List String} {start : Text}
    (hnext : Json.nextKey first text = .ok (.more start))
    (h : readMembers shape depth (fuel + 1) first seen s text = .ok (s', rest)) :
    ∃ key behindKey front behind seen' s1, Json.readString (start.drop 1) = .ok (key, behindKey) ∧
      Json.colon behindKey = .ok front ∧
      (shape.isClosed = false ∧ Json.skip front = .ok behind ∧ s1 = s ∨
        ∃ field, shape.field? key = some field ∧ ∃ change,
          field.fill.read depth front = .ok (change, behind) ∧ s1 = change s) ∧
      readMembers shape depth fuel false seen' s1 behind = .ok (s', rest) := by
  rw [readMembers, hnext, Outcome.bind_ok] at h
  obtain ⟨⟨key, behindKey⟩, hstring, h⟩ := Outcome.bind_eq_ok_iff.mp h
  dsimp only at h
  split at h
  · split at h
    · cases h
    next hopen =>
    obtain ⟨front, hcolon, h⟩ := Outcome.bind_eq_ok_iff.mp h
    obtain ⟨behind, hskip, h⟩ := Outcome.bind_eq_ok_iff.mp h
    have hclosed : shape.isClosed = false := Bool.eq_false_iff.mpr hopen
    exact ⟨key, behindKey, front, behind, _, s, hstring, hcolon, .inl ⟨hclosed, hskip, rfl⟩, h⟩
  · next field hfield =>
    split at h
    · cases h
    obtain ⟨front, hcolon, h⟩ := Outcome.bind_eq_ok_iff.mp h
    obtain ⟨⟨change, behind⟩, hfill, h⟩ := Outcome.bind_eq_ok_iff.mp h
    exact ⟨key, behindKey, front, behind, _, change s, hstring, hcolon,
      .inr ⟨field, hfield, change, hfill, rfl⟩, h⟩

theorem readMembers_done {fuel : Nat} {first : Bool} {seen : List String} {last : Text}
    (hnext : Json.nextKey first text = .ok (.done last))
    (h : readMembers shape depth (fuel + 1) first seen s text = .ok (s', rest)) : s = s' ∧ last = rest := by
  rw [readMembers, hnext, Outcome.bind_ok] at h
  exact Prod.mk.inj (Except.ok.inj h)

/-- The next item is the value of the next field, unless the list ends. -/
theorem readItems_eq_ok {count : Nat} {field : Field σ} {more : List (Field σ)}
    (h : readItems shape depth count (field :: more) s text = .ok (s', rest)) :
    Json.nextItem (count == 0) text = .ok (.done rest) ∧ s' = s ∨
      ∃ front behind change, Json.nextItem (count == 0) text = .ok (.more front) ∧
        field.fill.read depth front = .ok (change, behind) ∧
        readItems shape depth (count + 1) more (change s) behind = .ok (s', rest) := by
  obtain ⟨next, hnext, h⟩ := Outcome.bind_eq_ok_iff.mp h
  cases next with
  | done last =>
    dsimp only at h
    split at h
    · cases h
    · obtain ⟨rfl, rfl⟩ := Prod.mk.inj (Except.ok.inj h)
      exact .inl ⟨hnext, rfl⟩
  | more front =>
    obtain ⟨⟨change, behind⟩, hfill, h⟩ := Outcome.bind_eq_ok_iff.mp h
    exact .inr ⟨front, behind, change, hnext, hfill, h⟩

theorem finish_of_finished {φ : Type} {a : α} (h : (shape.finished s : Except (Mismatch φ) α) = .ok a) :
    shape.finish s = .ok a :=
  Outcome.mapError_eq_ok_iff.mp h

theorem readObject_eq_ok {a : α} (h : readObject shape depth text = .ok (a, rest)) :
    ∃ s behind, readMembers shape depth (text.length + 1) true [] shape.start text = .ok (s, behind) ∧
      shape.finish s = .ok a ∧ skipSpace behind = '}' :: rest := by
  obtain ⟨⟨s, behind⟩, hmembers, h⟩ := Outcome.bind_eq_ok_iff.mp h
  dsimp only at h
  split at h
  · cases h
  next hfinished =>
  obtain ⟨last, hclose, h⟩ := Outcome.bind_eq_ok_iff.mp h
  obtain ⟨rfl, rfl⟩ := Prod.mk.inj (Except.ok.inj h)
  exact ⟨s, behind, hmembers, finish_of_finished hfinished, Json.closeObject_eq_ok hclose⟩

theorem readFields_eq_ok {a : α} (h : readFields shape depth text = .ok (a, rest)) :
    ∃ s behind, readItems shape depth 0 shape.fields shape.start text = .ok (s, behind) ∧
      shape.finish s = .ok a ∧ skipSpace behind = ']' :: rest := by
  obtain ⟨⟨s, behind⟩, hitems, h⟩ := Outcome.bind_eq_ok_iff.mp h
  dsimp only at h
  split at h
  · cases h
  next hfinished =>
  obtain ⟨last, hclose, h⟩ := Outcome.bind_eq_ok_iff.mp h
  obtain ⟨rfl, rfl⟩ := Prod.mk.inj (Except.ok.inj h)
  exact ⟨s, behind, hitems, finish_of_finished hfinished, Json.closeList_eq_ok hclose⟩

theorem record_eq_ok {a : α} (h : (record shape).read depth text = .ok (a, rest)) :
    (∃ front less, skipSpace text = '{' :: front ∧ readObject shape less front = .ok (a, rest)) ∨
      ∃ front less, skipSpace text = '[' :: front ∧ readFields shape less front = .ok (a, rest) := by
  replace h : readRecord shape depth text = .ok (a, rest) := h
  unfold readRecord at h
  split at h
  · next hbrace =>
    obtain ⟨less, hobject⟩ := exists_of_deeper h
    exact .inl ⟨_, less, hbrace, hobject⟩
  · next hbracket =>
    obtain ⟨less, hlist⟩ := exists_of_deeper h
    exact .inr ⟨_, less, hbracket, hlist⟩
  · exact absurd h refuse_ne_ok

end

/-- A whole text has a value at its front and only blanks behind it. -/
theorem parse_eq_ok {d : Decoder α} {a : α} (h : d.parse text = .ok a) :
    ∃ rest, d.read Json.depthLimit text = .ok (a, rest) ∧ skipSpace rest = [] := by
  obtain ⟨⟨b, rest⟩, hread, h⟩ := Outcome.bind_eq_ok_iff.mp h
  dsimp only at h
  split at h
  · next hend =>
    obtain rfl := Except.ok.inj h
    exact ⟨rest, hread, hend⟩
  · cases h

end Decoder

end AmdBundle
