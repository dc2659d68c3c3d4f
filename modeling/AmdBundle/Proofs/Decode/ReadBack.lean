import AmdBundle.Decode.Choice
import AmdBundle.Decode.Record
import AmdBundle.Proofs.Json.Printing
import AmdBundle.Proofs.Json.RoundTrip

/-!
# Printed values are read back

* `Decoder.ReadsBack` : a decoder takes a value from a part of a text, whatever stands behind it;
* `readsBack_text`, `readsBack_bool`, `readsBack_count`, `readsBack_choice` : single values;
* `readsBack_none`, `readsBack_some`, `readsBack_list` : values around others;
* `readsBack_record` : a record, from members in any order.
-/

set_option autoImplicit false

namespace AmdBundle
open Json (EndsNumber IsBlank Layout StartsItem)

variable {σ α β : Type}

namespace Decoder

/-- The decoder takes the value from a part of a text, with blanks before it and what ends a number behind
it. -/
structure ReadsBack (d : Decoder α) (depth : Nat) (a : α) (part : Text) : Prop where
  starts : StartsItem part
  reads {gap rest : Text} (hgap : IsBlank gap) (hrest : EndsNumber rest) :
    d.read depth (gap ++ (part ++ rest)) = .ok (a, rest)

theorem skipSpace_part {gap part : Text} (hgap : IsBlank gap) (hpart : StartsItem part) (rest : Text) :
    Json.skipSpace (gap ++ (part ++ rest)) = part ++ rest := by
  rw [Json.skipSpace_append hgap, (hpart.append rest).skipSpace]

namespace ReadsBack
variable {d : Decoder α} {depth : Nat} {a : α} {part : Text}

theorem readsPart (h : d.ReadsBack depth a part) : Json.ReadsPart (d.read depth) a part :=
  ⟨h.starts, fun _ hrest => h.reads Json.isBlank_nil hrest⟩

theorem map (h : d.ReadsBack depth a part) (f : α → β) : (d.map f).ReadsBack depth (f a) part := by
  refine ⟨h.starts, fun {gap rest} hgap hrest => ?_⟩
  show (d.read depth (gap ++ (part ++ rest))).map _ = _
  rw [h.reads hgap hrest]
  rfl

/-- A text that is one value. -/
theorem parse (h : d.ReadsBack Json.depthLimit a part) : d.parse part = .ok a := by
  have hread := h.reads Json.isBlank_nil Json.endsNumber_nil
  rw [List.nil_append, List.append_nil] at hread
  rw [Decoder.parse, Json.whole, hread]
  rfl

end ReadsBack

/-! ## Single values -/

variable {depth : Nat}

theorem startsItem_quote (value : Text) : StartsItem (Text.quote value) :=
  ⟨'"', _, rfl, rfl, by decide⟩

theorem readText_quote (wanted : Wanted) (value : Text) {gap : Text} (hgap : IsBlank gap) (rest : Text) :
    readText wanted (gap ++ (Text.quote value ++ rest)) = .ok (value, rest) := by
  rw [readText, skipSpace_part hgap (startsItem_quote value)]
  show Json.readString (value.flatMap Text.jsonEscape ++ ['"'] ++ rest) = .ok (value, rest)
  rw [List.append_assoc]
  exact Json.readString_quote value rest

theorem readsBack_text (wanted : Wanted) (value : Text) :
    (textAs wanted).ReadsBack depth value (Text.quote value) :=
  ⟨startsItem_quote value, fun hgap _ => readText_quote wanted value hgap _⟩

theorem readsBack_bool (value : Bool) : bool.ReadsBack depth value (Json.boolText value) := by
  have hstarts : StartsItem (Json.boolText value) := by
    cases value <;> exact ⟨_, _, rfl, rfl, by decide⟩
  refine ⟨hstarts, fun {gap rest} hgap _ => ?_⟩
  show readBool _ = _
  rw [readBool, skipSpace_part hgap hstarts]
  cases value with
  | true =>
    show (Json.word ['r', 'u', 'e'] (['r', 'u', 'e'] ++ rest)).map _ = _
    rw [Json.word_append]
    rfl
  | false =>
    show (Json.word ['a', 'l', 's', 'e'] (['a', 'l', 's', 'e'] ++ rest)).map _ = _
    rw [Json.word_append]
    rfl

theorem countOf_ofNat (n : Nat) : countOf (.whole n) = .ok n := by
  rw [countOf, if_neg (by omega), Int.natAbs_natCast]

theorem readsBack_count {value : Nat} (h : value ≤ Json.wordLimit) :
    count.ReadsBack depth value (Text.ofNat value) := by
  obtain ⟨c, digits, heq, hdigit⟩ := Json.exists_ofNat_eq value
  have hstarts : StartsItem (Text.ofNat value) :=
    ⟨c, digits, heq, Json.isSpace_digit hdigit, Json.ne_of_isDigit hdigit rfl⟩
  refine ⟨hstarts, fun {gap rest} hgap hrest => ?_⟩
  have hread := Json.readNumber_ofNat h hrest true
  show readCount _ = _
  rw [readCount, skipSpace_part hgap hstarts]
  rw [heq, List.cons_append] at hread ⊢
  simp only [hdigit, or_true, if_true, Json.ne_of_isDigit hdigit (d := '-') rfl, if_false, hread,
    Json.wholeNumber, Outcome.bind_ok, countOf_ofNat]

theorem readsBack_choice {cs : Choices α} {a : α} (h : cs.find? (cs.name a).toList = some a) :
    (choice cs).ReadsBack depth a (Text.quote (cs.name a).toList) := by
  refine ⟨startsItem_quote _, fun {gap rest} hgap _ => ?_⟩
  have hnamed : (cs.named (cs.name a).toList : Except (Mismatch Json.Found) α) = .ok a := by
    rw [Choices.named, h]
  have hread := readText_quote .choiceName (cs.name a).toList Json.isBlank_nil rest
  simp only [choice, skipSpace_part hgap (startsItem_quote _)]
  show readName cs .choiceName (Text.quote (cs.name a).toList ++ rest) = .ok (a, rest)
  rw [readName, show readText .choiceName (Text.quote (cs.name a).toList ++ rest) = _ from hread]
  simp only [Outcome.bind_ok, hnamed]

/-! ## Values around others -/

theorem readsBack_none (d : Decoder α) : (optional d).ReadsBack depth none "null".toList := by
  have hstarts : StartsItem "null".toList := ⟨'n', _, rfl, rfl, by decide⟩
  refine ⟨hstarts, fun {gap rest} hgap _ => ?_⟩
  simp only [optional, skipSpace_part hgap hstarts]
  show (Json.word ['u', 'l', 'l'] (['u', 'l', 'l'] ++ rest)).map _ = _
  rw [Json.word_append]
  rfl

theorem readsBack_some {d : Decoder α} {a : α} {part : Text} (h : d.ReadsBack depth a part)
    (hnull : part.head? ≠ some 'n') : (optional d).ReadsBack depth (some a) part := by
  refine ⟨h.starts, fun {gap rest} hgap hrest => ?_⟩
  have hread := (h.map some).reads Json.isBlank_nil hrest
  simp only [optional, skipSpace_part hgap h.starts]
  obtain ⟨c, more, rfl, -, -⟩ := h.starts
  split
  · next heq => exact absurd (congrArg some (List.cons.inj heq).1) hnull
  · exact hread

/-- A list between brackets, with any blanks between its items. -/
theorem readsBack_list {d : Decoder α} {all : List α} {parts : List Text} {lead between close : Text}
    (hlead : IsBlank lead) (hbetween : IsBlank between) (hclose : IsBlank close)
    (h : List.Forall₂ (d.ReadsBack depth) all parts) :
    (list d).ReadsBack (depth + 1) all
      ('[' :: (lead ++ (',' :: between).intercalate parts ++ close ++ [']'])) := by
  have hstarts : StartsItem ('[' :: (lead ++ (',' :: between).intercalate parts ++ close ++ [']'])) :=
    ⟨'[', _, rfl, rfl, by decide⟩
  refine ⟨hstarts, fun {gap rest} hgap _ => ?_⟩
  have hparts := h.imp fun _ _ hpart => hpart.readsPart
  have hitems := Json.items_parts hlead hbetween hclose hparts rest
  simp only [list, skipSpace_part hgap hstarts]
  show Json.items (d.read depth) (lead ++ (',' :: between).intercalate parts ++ close ++ [']'] ++ rest) = _
  rw [List.append_assoc _ [']']]
  exact hitems

/-- A printed list. -/
theorem readsBack_array {layout : Layout} {d : Decoder α} {n : Nat} {all : List α} {items : List Json}
    (h : List.Forall₂ (fun a item => d.ReadsBack depth a (layout.print (n + 2) item)) all items) :
    (list d).ReadsBack (depth + 1) all (layout.print n (.array items)) := by
  cases items with
  | nil =>
    cases h
    rw [layout.print_empty]
    exact readsBack_list Json.isBlank_nil Json.isBlank_nil Json.isBlank_nil .nil
  | cons item more =>
    have hparts := List.forall₂_map_right_iff.mpr h
    rw [layout.print_array]
    exact readsBack_list (layout.isBlank_gap (n + 2)) (layout.isBlank_gap (n + 2))
      (layout.isBlank_gap n) hparts

/-! ## Records -/

/-- The members of an object, each behind a comma. -/
def followingMembers (layout : Layout) (n : Nat) (members : List (Text × Json)) : Text :=
  members.flatMap fun m => ',' :: (layout.gap n ++ layout.member n m)

/-- A member of an object makes this change to the record that is read. -/
def Enters (layout : Layout) (shape : Shape σ α) (n depth : Nat) (m : Text × Json) (change : σ → σ) :
    Prop :=
  ∃ field, shape.field? m.1 = some field ∧ field.fill.ReadsBack depth change (layout.print n m.2)

/-- The members of an object, one behind the other, lead from one state of the record to another. -/
inductive Leads (layout : Layout) (shape : Shape σ α) (n depth : Nat) :
    σ → List (Text × Json) → σ → Prop where
  | nil (s : σ) : Leads layout shape n depth s [] s
  | cons {m : Text × Json} {members : List (Text × Json)} {change : σ → σ} {s s' : σ}
      (first : Enters layout shape n depth m change)
      (more : Leads layout shape n depth (change s) members s') :
      Leads layout shape n depth s (m :: members) s'

section
variable {layout : Layout} {shape : Shape σ α} {n : Nat} {m : Text × Json}
  {members more : List (Text × Json)} {s s' s'' : σ}

theorem Leads.append (h : Leads layout shape n depth s members s')
    (hmore : Leads layout shape n depth s' more s'') :
    Leads layout shape n depth s (members ++ more) s'' := by
  induction h with
  | nil => exact hmore
  | cons first _ ih => exact .cons first (ih hmore)

theorem Leads.of_field {name : String} {d : Decoder β} {set : β → σ → σ}
    (hfield : shape.field? name.toList = some (.of name d set)) {b : β} {v : Json}
    (h : d.ReadsBack depth b (layout.print n v)) (hmore : Leads layout shape n depth (set b s) members s') :
    Leads layout shape n depth s ((name.toList, v) :: members) s' :=
  .cons ⟨_, hfield, h.map set⟩ hmore

theorem endsNumber_followingMembers (layout : Layout) (n : Nat) (members : List (Text × Json))
    {rest : Text} (hrest : EndsNumber rest) : EndsNumber (followingMembers layout n members ++ rest) := by
  cases members with
  | nil => exact hrest
  | cons m members => exact Json.endsNumber_cons (by decide)

theorem readMembers_member {change : σ → σ} (h : Enters layout shape n depth m change)
    {seen : List String} (hnew : ∀ name ∈ seen, name.toList ≠ m.1) {first : Bool} {text rest : Text}
    (hnext : Json.nextKey first text = .ok (.more (layout.member n m ++ rest))) (hrest : EndsNumber rest)
    (fuel : Nat) (s : σ) : ∃ name : String, name.toList = m.1 ∧
      readMembers shape depth (fuel + 1) first seen s text =
        readMembers shape depth fuel false (name :: seen) (change s) rest := by
  obtain ⟨field, hfield, hreads⟩ := h
  have hfound := List.find?_some hfield
  have hname : field.name.toList = m.1 := of_decide_eq_true hfound
  have hseen : seen.contains field.name = false := by
    rw [List.contains_eq_mem, decide_eq_false_iff_not]
    exact fun hmem => hnew _ hmem hname
  refine ⟨field.name, hname, ?_⟩
  rw [readMembers, hnext, Outcome.bind_ok, layout.member_append]
  simp only [List.drop_one, List.tail_cons, Json.readString_quote, Outcome.bind_ok, hfield, hseen,
    Json.colon_cons, hreads.reads layout.isBlank_space hrest]
  rfl

theorem readMembers_members (h : Leads layout shape n depth s members s')
    (hdistinct : (members.map Prod.fst).Nodup) {seen : List String}
    (hnew : ∀ m ∈ members, ∀ name ∈ seen, name.toList ≠ m.1) {rest : Text} (hrest : EndsNumber rest)
    (fuel : Nat) : ∃ seen',
      readMembers shape depth (members.length + fuel) false seen s
          (followingMembers layout n members ++ rest) =
        readMembers shape depth fuel false seen' s' rest := by
  induction h generalizing seen with
  | nil => exact ⟨seen, by rw [followingMembers, List.length_nil, Nat.zero_add]; rfl⟩
  | @cons m members change s s' hm _ ih =>
    obtain ⟨hfirst, hdistinct⟩ := List.nodup_cons.mp hdistinct
    obtain ⟨hnewFirst, hnew⟩ := List.forall_mem_cons.mp hnew
    have hends := endsNumber_followingMembers layout n members hrest
    have hnext : Json.nextKey false (followingMembers layout n (m :: members) ++ rest) =
        .ok (.more (layout.member n m ++ (followingMembers layout n members ++ rest))) := by
      have htext : followingMembers layout n (m :: members) ++ rest = ',' :: (layout.gap n ++
          (layout.member n m ++ (followingMembers layout n members ++ rest))) := by
        simp [followingMembers]
      rw [htext, layout.member_append, Json.nextKey_comma (layout.isBlank_gap n)]
    obtain ⟨name, hname, hread⟩ :=
      readMembers_member hm hnewFirst hnext hends (members.length + fuel) s
    have hnewName : ∀ m ∈ members, ∀ x ∈ name :: seen, x.toList ≠ m.1 := by
      intro m' hm' x hx
      rcases List.mem_cons.mp hx with rfl | hx
      · exact fun heq => hfirst (List.mem_map.mpr ⟨m', hm', by rw [← heq, hname]⟩)
      · exact hnew m' hm' x hx
    obtain ⟨seen', hmore⟩ := ih hdistinct hnewName
    refine ⟨seen', ?_⟩
    rw [List.length_cons, Nat.add_right_comm, hread, hmore]

/-- All members of an object, from the character behind its opening brace on. -/
theorem readMembers_object (h : Leads layout shape n depth s (m :: members) s')
    (hdistinct : ((m :: members).map Prod.fst).Nodup) {close : Text} (hclose : IsBlank close)
    (rest : Text) {text : Text} (htext : text = layout.gap n ++ (layout.member n m ++
      (followingMembers layout n members ++ (close ++ '}' :: rest)))) :
    readMembers shape depth (text.length + 1) true [] s text = .ok (s', '}' :: rest) := by
  have hends : EndsNumber (close ++ '}' :: rest) :=
    Json.endsNumber_append hclose (Json.endsNumber_cons (by decide))
  have hnext : Json.nextKey true text =
      .ok (.more (layout.member n m ++ (followingMembers layout n members ++ (close ++ '}' :: rest)))) := by
    rw [htext, layout.member_append, Json.nextKey_first (layout.isBlank_gap n)]
  have hlength : members.length ≤ (followingMembers layout n members).length :=
    Lists.length_le_length_flatMap (by simp) members
  have hlt : members.length < text.length := by
    rw [htext]
    simp only [List.length_append, List.length_cons]
    omega
  obtain ⟨fuel, hfuel⟩ := Nat.exists_eq_add_of_lt hlt
  cases h with
  | @cons _ _ change _ _ hm hmembers =>
    obtain ⟨hnew, hdistinct⟩ := List.nodup_cons.mp hdistinct
    obtain ⟨name, hname, hfirst⟩ := readMembers_member hm (List.forall_mem_nil _) hnext
      (endsNumber_followingMembers layout n members hends) (members.length + (fuel + 1)) s
    have hseen : ∀ m' ∈ members, ∀ x ∈ [name], x.toList ≠ m'.1 := by
      intro m' hm' x hx heq
      obtain rfl := List.mem_singleton.mp hx
      exact hnew (List.mem_map.mpr ⟨m', hm', heq.symm.trans hname⟩)
    obtain ⟨seen, hmore⟩ := readMembers_members hmembers hdistinct hseen hends (fuel + 1)
    rw [hfuel, Nat.add_assoc members.length, hfirst, hmore, readMembers, Json.nextKey_close hclose]
    rfl

/-- **A record is read back from its members**, if each of them is. -/
theorem readsBack_record (hne : members ≠ [])
    (h : Leads layout shape (n + 2) depth shape.start members s')
    (hdistinct : (members.map Prod.fst).Nodup) {a : α} (hfinish : shape.finish s' = .ok a) :
    (record shape).ReadsBack (depth + 1) a (layout.print n (.object members)) := by
  obtain ⟨m, members, rfl⟩ := List.exists_cons_of_ne_nil hne
  have hstarts : StartsItem (layout.print n (.object (m :: members))) := by
    rw [layout.print_object]
    exact ⟨'{', _, rfl, rfl, by decide⟩
  refine ⟨hstarts, fun {gap rest} hgap _ => ?_⟩
  have htext : layout.print n (.object (m :: members)) ++ rest = '{' :: (layout.gap (n + 2) ++
      (layout.member (n + 2) m ++ (followingMembers layout (n + 2) members ++
        (layout.gap n ++ '}' :: rest)))) := by
    rw [layout.print_object]
    simp [Lists.intercalate_cons, followingMembers, Layout.member, List.flatMap_map]
  have hmembers := readMembers_object h hdistinct (layout.isBlank_gap n) rest rfl
  have hfinished : (shape.finished s' : Except (Mismatch Json.Found) α) = .ok a := by
    rw [Shape.finished, hfinish]
    rfl
  show readRecord shape (depth + 1) _ = _
  rw [readRecord, skipSpace_part hgap hstarts, htext]
  show readObject shape depth _ = _
  rw [readObject, hmembers, Outcome.bind_ok]
  simp only [hfinished, Json.closeObject, Json.skipSpace_cons (c := '}') rfl, if_true, Outcome.bind_ok]

end

end Decoder

end AmdBundle
