import AmdBundle.Proofs.Decode.Steps
import AmdBundle.Proofs.Json.Skipped

/-!
# What a decoder takes can be skipped

A decoder looks only at values that are well formed. So the object that a record is read from has the
same keys for a reader that knows nothing of the record.

* `Decoder.IsSkipped` : what is taken from a text is a value of the text;
* `isSkipped_map`, `isSkipped_optional`, `isSkipped_list`, `isSkipped_record` : of a decoder made of
  others;
* `objectKeys_of_parse` : the keys of an object that is read as a record.
-/

set_option autoImplicit false

namespace AmdBundle
open Json (ListBody ListTail MembersTail ObjectBody Skipped StartsMember skipSpace)

namespace Json

/-- What the reader takes from a text is a value of the text. -/
def IsSkipped {α : Type} (read : Reader α) : Prop :=
  ∀ {text rest : Text} {a : α}, read text = .ok (a, rest) → Skipped text rest

section
variable {α : Type} {read : Reader α} (hread : IsSkipped read)
include hread

theorem listTail_of_itemsFrom {fuel : Nat} {text behind rest : Text} {all : List α}
    (h : itemsFrom read fuel false text = .ok (all, behind)) (hclose : skipSpace behind = ']' :: rest) :
    ListTail text rest := by
  induction fuel generalizing text all with
  | zero => cases h
  | succ fuel ih =>
    obtain ⟨next, hnext, h⟩ := Outcome.bind_eq_ok_iff.mp h
    rcases nextItem_later_eq_ok hnext with ⟨last, hbracket, rfl⟩ | ⟨front, hcomma, rfl⟩
    · obtain ⟨-, rfl⟩ := Prod.mk.inj (Except.ok.inj h)
      rw [skipSpace_cons (c := ']') rfl] at hclose
      exact .close (hbracket.trans hclose)
    · obtain ⟨⟨item, rest'⟩, hitem, h⟩ := Outcome.bind_eq_ok_iff.mp h
      obtain ⟨⟨more, last⟩, hmore, h⟩ := Outcome.bind_eq_ok_iff.mp h
      obtain ⟨-, rfl⟩ := Prod.mk.inj (Except.ok.inj h)
      exact .item hcomma (.of_skipSpace (hread hitem)) (ih hmore)

theorem listBody_of_items {text rest : Text} {all : List α} (h : items read text = .ok (all, rest)) :
    ListBody text rest := by
  obtain ⟨⟨found, behind⟩, hitems, h⟩ := Outcome.bind_eq_ok_iff.mp h
  obtain ⟨last, hclose, h⟩ := Outcome.bind_eq_ok_iff.mp h
  obtain ⟨-, rfl⟩ := Prod.mk.inj (Except.ok.inj h)
  have hend := closeList_eq_ok hclose
  obtain ⟨next, hnext, hitems⟩ := Outcome.bind_eq_ok_iff.mp hitems
  rcases nextItem_first_eq_ok hnext with ⟨last, hbracket, rfl⟩ | ⟨c, front, hstart, hc, rfl⟩
  · obtain ⟨-, rfl⟩ := Prod.mk.inj (Except.ok.inj hitems)
    rw [skipSpace_cons (c := ']') rfl] at hend
    exact .empty (hbracket.trans hend)
  · obtain ⟨⟨item, rest'⟩, hitem, hitems⟩ := Outcome.bind_eq_ok_iff.mp hitems
    obtain ⟨⟨more, last⟩, hmore, hitems⟩ := Outcome.bind_eq_ok_iff.mp hitems
    obtain ⟨-, rfl⟩ := Prod.mk.inj (Except.ok.inj hitems)
    exact .item hstart hc (hread hitem) (listTail_of_itemsFrom hread hmore hend)

end

end Json

/-- A record can have a member with that key. -/
def Shape.Takes {σ α : Type} (shape : Shape σ α) (key : Text) : Prop :=
  shape.isClosed = true → ∃ field, shape.field? key = some field

namespace Decoder

/-- What the decoder takes from a text is a value of the text. -/
def IsSkipped {α : Type} (d : Decoder α) : Prop :=
  ∀ depth, Json.IsSkipped (d.read depth)

variable {σ α β : Type}

/-! ## Single values -/

theorem isSkipped_map {d : Decoder α} (h : d.IsSkipped) (f : α → β) : (d.map f).IsSkipped := by
  intro depth text rest b hread
  obtain ⟨a, hfound, -⟩ := map_eq_ok hread
  exact h depth hfound

theorem isSkipped_textAs (wanted : Wanted) : (textAs wanted).IsSkipped := by
  intro depth text rest value h
  obtain ⟨front, hquote, hstring⟩ := readText_eq_ok h
  exact Json.skipped_of_readString hquote hstring

theorem isSkipped_bool : bool.IsSkipped := by
  intro depth text rest value h
  replace h : readBool text = .ok (value, rest) := h
  unfold readBool at h
  split at h
  · next hstart => exact Json.skipped_of_word hstart (word_eq_ok h).1 (by simp)
  · next hstart => exact Json.skipped_of_word hstart (word_eq_ok h).1 (by simp)
  · exact absurd h refuse_ne_ok

theorem isSkipped_count : count.IsSkipped := by
  intro depth text rest n h
  obtain ⟨c, front, x, hstart, -, ⟨rfl, hnumber⟩ | ⟨hc, hnumber⟩⟩ := readCount_eq_ok h
  · exact Json.skipped_of_negative hstart hnumber
  · exact Json.skipped_of_digits hstart hc hnumber

/-! ## Values around others -/

theorem isSkipped_optional {d : Decoder α} (h : d.IsSkipped) : (optional d).IsSkipped := by
  intro depth text rest value hread
  obtain ⟨front, hstart, hword, -⟩ | ⟨a, hsome, -⟩ := optional_eq_ok hread
  · exact Json.skipped_of_word hstart hword (by simp)
  · exact .of_skipSpace (h depth hsome)

theorem isSkipped_list {d : Decoder α} (h : d.IsSkipped) : (list d).IsSkipped := by
  intro depth text rest all hread
  obtain ⟨front, less, hbracket, hitems⟩ := list_eq_ok hread
  exact (Json.listBody_of_items (h less) hitems).skipped hbracket

/-! ## Choices -/

theorem objectBody_of_readNamed {cs : Choices α} {text rest : Text} {a : α}
    (h : readNamed cs text = .ok (a, rest)) : ∃ key, ObjectBody text [key] rest := by
  obtain ⟨behindKey, front, behind, hname, hcolon, hnothing, hbrace⟩ := readNamed_eq_ok h
  obtain ⟨key, start, hquote, hstring⟩ := readName_eq_ok hname
  obtain ⟨front', hstart, hword⟩ := readNothing_eq_ok hnothing
  have hvalue : Skipped front behind := Json.skipped_of_word hstart hword (by simp)
  exact ⟨key, .member ⟨hquote, hstring, hcolon, hvalue⟩ (.close hbrace)⟩

theorem isSkipped_choice (cs : Choices α) : (choice cs).IsSkipped := by
  intro depth text rest a h
  obtain ⟨front, name, hquote, hstring⟩ | ⟨front, hbrace, hnamed⟩ := choice_eq_ok h
  · exact Json.skipped_of_readString hquote hstring
  · obtain ⟨key, hbody⟩ := objectBody_of_readNamed hnamed
    exact hbody.skipped hbrace

/-! ## Records -/

theorem isSkipped_field {name : String} {d : Decoder β} {set : β → σ → σ} (h : d.IsSkipped) :
    (Field.of name d set).fill.IsSkipped :=
  isSkipped_map h set

section
variable {shape : Shape σ α} {depth : Nat} (hfields : ∀ field ∈ shape.fields, field.fill.IsSkipped)
include hfields

/-- What is read from a quote on is a member, and the rest is read as further members are. -/
theorem exists_member_of_readMembers {fuel : Nat} {first : Bool} {seen : List String} {s s' : σ}
    {text start front last : Text} (hquote : skipSpace start = '"' :: front)
    (hnext : Json.nextKey first text = .ok (.more ('"' :: front)))
    (h : readMembers shape depth (fuel + 1) first seen s text = .ok (s', last)) :
    ∃ key behind seen' s1, StartsMember start key behind ∧ shape.Takes key ∧
      readMembers shape depth fuel false seen' s1 behind = .ok (s', last) := by
  obtain ⟨key, behindKey, front', behind, seen', s1, hstring, hcolon, hvalue, hmore⟩ :=
    readMembers_eq_ok hnext h
  rcases hvalue with ⟨hopen, hskip, -⟩ | ⟨field, hfield, change, hfill, -⟩
  · exact ⟨key, behind, seen', s1, ⟨hquote, hstring, hcolon, .of_skip hskip⟩,
      fun hclosed => absurd (hopen.symm.trans hclosed) Bool.false_ne_true, hmore⟩
  · have hmem := List.mem_of_find?_eq_some hfield
    exact ⟨key, behind, seen', s1, ⟨hquote, hstring, hcolon, hfields field hmem depth hfill⟩,
      fun _ => ⟨field, hfield⟩, hmore⟩

theorem membersTail_of_readMembers {fuel : Nat} {seen : List String} {s s' : σ} {text behind rest : Text}
    (h : readMembers shape depth fuel false seen s text = .ok (s', behind))
    (hclose : skipSpace behind = '}' :: rest) :
    ∃ keys, MembersTail text keys rest ∧ ∀ key ∈ keys, shape.Takes key := by
  induction fuel generalizing seen s text with
  | zero => cases h
  | succ fuel ih =>
    obtain ⟨next, hnext, -⟩ := Outcome.bind_eq_ok_iff.mp h
    rcases Json.nextKey_later_eq_ok hnext with ⟨last, hbrace, rfl⟩ | ⟨start, front, hcomma, hquote, rfl⟩
    · obtain ⟨-, rfl⟩ := readMembers_done hnext h
      rw [Json.skipSpace_cons (c := '}') rfl] at hclose
      exact ⟨[], .close (hbrace.trans hclose), List.forall_mem_nil _⟩
    · obtain ⟨key, last, seen', s1, hmember, htakes, hmore⟩ :=
        exists_member_of_readMembers hfields hquote hnext h
      obtain ⟨keys, htail, hkeys⟩ := ih hmore
      exact ⟨key :: keys, .member hcomma hmember htail, List.forall_mem_cons.mpr ⟨htakes, hkeys⟩⟩

/-- **What is read as a record is an object** whose keys the record can have. -/
theorem objectBody_of_readObject {text rest : Text} {a : α}
    (h : readObject shape depth text = .ok (a, rest)) :
    ∃ keys, ObjectBody text keys rest ∧ ∀ key ∈ keys, shape.Takes key := by
  obtain ⟨s, behind, hmembers, -, hclose⟩ := readObject_eq_ok h
  obtain ⟨next, hnext, -⟩ := Outcome.bind_eq_ok_iff.mp hmembers
  rcases Json.nextKey_first_eq_ok hnext with ⟨last, hbrace, rfl⟩ | ⟨front, hquote, rfl⟩
  · obtain ⟨-, rfl⟩ := readMembers_done hnext hmembers
    rw [Json.skipSpace_cons (c := '}') rfl] at hclose
    exact ⟨[], .empty (hbrace.trans hclose), List.forall_mem_nil _⟩
  · obtain ⟨key, behindMember, seen, s', hmember, htakes, hmore⟩ :=
      exists_member_of_readMembers hfields hquote hnext hmembers
    obtain ⟨keys, htail, hkeys⟩ := membersTail_of_readMembers hfields hmore hclose
    exact ⟨key :: keys, .member hmember htail, List.forall_mem_cons.mpr ⟨htakes, hkeys⟩⟩

theorem listTail_of_readItems {fields : List (Field σ)} (hsub : fields ⊆ shape.fields) {count : Nat}
    (hcount : count ≠ 0) {s s' : σ} {text behind rest : Text}
    (h : readItems shape depth count fields s text = .ok (s', behind))
    (hclose : skipSpace behind = ']' :: rest) : ListTail text rest := by
  induction fields generalizing count s text with
  | nil =>
    obtain ⟨-, rfl⟩ := Prod.mk.inj (Except.ok.inj h)
    exact .close hclose
  | cons field more ih =>
    obtain ⟨hfield, hmore⟩ := List.cons_subset.mp hsub
    have hlater : (count == 0) = false := beq_false_of_ne hcount
    obtain ⟨hdone, -⟩ | ⟨front, last, change, hnext, hfill, hitems⟩ := readItems_eq_ok h
    · rw [hlater] at hdone
      rcases Json.nextItem_later_eq_ok hdone with ⟨last, hbracket, heq⟩ | ⟨front, -, heq⟩
      · obtain rfl := Json.Next.done.inj heq
        rw [Json.skipSpace_cons (c := ']') rfl] at hclose
        exact .close (hbracket.trans hclose)
      · cases heq
    · rw [hlater] at hnext
      rcases Json.nextItem_later_eq_ok hnext with ⟨last, -, heq⟩ | ⟨front', hcomma, heq⟩
      · cases heq
      · obtain rfl := Json.Next.more.inj heq
        exact .item hcomma (.of_skipSpace (hfields field hfield depth hfill)) (ih hmore (by omega) hitems)

theorem listBody_of_readFields {text rest : Text} {a : α}
    (h : readFields shape depth text = .ok (a, rest)) : ListBody text rest := by
  obtain ⟨s, behind, hitems, -, hclose⟩ := readFields_eq_ok h
  have hsub := List.Subset.refl shape.fields
  generalize hall : shape.fields = all at hitems
  rw [hall] at hsub
  cases all with
  | nil =>
    obtain ⟨-, rfl⟩ := Prod.mk.inj (Except.ok.inj hitems)
    exact .empty hclose
  | cons field more =>
    obtain ⟨hfield, hmore⟩ := List.cons_subset.mp hsub
    obtain ⟨hdone, -⟩ | ⟨front, last, change, hnext, hfill, hitems⟩ := readItems_eq_ok hitems
    · rcases Json.nextItem_first_eq_ok hdone with ⟨last, hbracket, heq⟩ | ⟨c, front, -, -, heq⟩
      · obtain rfl := Json.Next.done.inj heq
        rw [Json.skipSpace_cons (c := ']') rfl] at hclose
        exact .empty (hbracket.trans hclose)
      · cases heq
    · rcases Json.nextItem_first_eq_ok hnext with ⟨last, -, heq⟩ | ⟨c, front', hstart, hc, heq⟩
      · cases heq
      · obtain rfl := Json.Next.more.inj heq
        exact .item hstart hc (hfields field (hall ▸ hfield) depth hfill)
          (listTail_of_readItems hfields (hall ▸ hmore) (by omega) hitems hclose)

theorem isSkipped_record : (record shape).IsSkipped := by
  intro depth text rest a h
  obtain ⟨front, less, hbrace, hobject⟩ | ⟨front, less, hbracket, hlist⟩ := record_eq_ok h
  · obtain ⟨keys, hbody, -⟩ := objectBody_of_readObject hfields hobject
    exact hbody.skipped hbrace
  · exact (listBody_of_readFields hfields hlist).skipped hbracket

/-- **A record is read only from objects whose keys it can have.** -/
theorem objectKeys_of_parse {text front : Text} {a : α} (hbrace : skipSpace text = '{' :: front)
    (h : (record shape).parse text = .ok a) :
    ∃ keys, Json.objectKeys text = .ok keys ∧ ∀ key ∈ keys, shape.Takes key := by
  obtain ⟨rest, hread, hend⟩ := parse_eq_ok h
  obtain ⟨front', less, hbrace', hobject⟩ | ⟨front', less, hbracket, -⟩ := record_eq_ok hread
  · obtain ⟨keys, hbody, hkeys⟩ := objectBody_of_readObject hfields hobject
    exact ⟨keys, Json.objectKeys_of_body hbrace' hbody hend, hkeys⟩
  · cases hbrace.symm.trans hbracket

end

end Decoder

end AmdBundle
