import AmdBundle.CommandLine.Parse
import AmdBundle.Proofs.Outcome
import AmdBundle.Proofs.ResourceKey
import Mathlib.Tactic.Tauto

/-!
# Switches on both sides of the command

The switches for more and for less to say stand in front of the command or behind it. Each side is
checked on its own, and what both say is put together afterwards, so the two switches exclude each
other on one side only.

* `Names.Turns` : a word turns a switch on; `Gives` : one of the words in front of `--` does;
* `Switch.isOn` : the switch is on in what was read;
* `isOn_of_switch`, `isOn_of_readShort`, `isOn_of_readLong` : what one argument turns on;
* `isOn_of_readBuild`, `exists_of_readTop` : what all arguments of a side turn on;
* `exists_volume` : both switches are on exactly if they stand on different sides.
-/

set_option autoImplicit false

namespace AmdBundle.CommandLine

/-! ## Words that turn a switch on -/

/-- The switch is one of the letters, and only switches stand before it. -/
inductive Names.InLetters (names : Names) (switch : Switch) : Text → Prop
  | here {c : Char} {rest : Text} (hc : names.short? c = some (.switch switch)) :
      InLetters names switch (c :: rest)
  | later {c : Char} {rest : Text} {other : Switch} (hc : names.short? c = some (.switch other))
      (hrest : InLetters names switch rest) : InLetters names switch (c :: rest)

/-- The word turns the switch on, by its name or as one of several letters. -/
inductive Names.Turns (names : Names) (switch : Switch) : Text → Prop
  | long {name : Text} (hname : names.long? name = some (.switch switch)) :
      Turns names switch ('-' :: '-' :: name)
  | short {letters : Text} (hletters : names.InLetters switch letters) :
      Turns names switch ('-' :: letters)

/-- The word behind which every argument is plain. -/
def stopWord : Text := "--".toList

/-- One of the words in front of `--` turns the switch on. -/
def Gives (names : Names) (switch : Switch) (words : List Text) : Prop :=
  ∃ word ∈ words.takeWhile (· ≠ stopWord), names.Turns switch word

def Switch.isOn (line : CommandLine) : Switch → Bool
  | verbose => line.verbose
  | quiet => line.quiet
  | noColor => line.noColor
  | watch => line.build.watch
  | help => false
  | version => false

/-- No name can be taken for another kind of argument. -/
structure Names.IsClear (names : Names) : Prop where
  dash : names.short? '-' = none
  sign : ∀ name n, names.long? name = some n → '=' ∉ name

theorem mem_of_lookup {κ : Type} [DecidableEq κ] {key : κ} {table : List (κ × Name)} {name : Name}
    (h : lookup key table = some name) : key ∈ table.map Prod.fst := by
  induction table with
  | nil => cases h
  | cons row table ih =>
    obtain ⟨k, n⟩ := row
    rw [lookup] at h
    split at h
    · next heq => exact heq ▸ List.mem_cons_self
    · exact List.mem_cons_of_mem _ (ih h)

theorem sign_not_mem_of_lookup {table : List (String × Name)}
    (htable : ∀ key ∈ table.map Prod.fst, '=' ∉ key.toList) (word : Text) (name : Name)
    (h : lookup (String.ofList word) table = some name) : '=' ∉ word := by
  have hkey := htable _ (mem_of_lookup h)
  rwa [String.toList_ofList] at hkey

theorem isClear_buildNames : buildNames.IsClear :=
  ⟨rfl, sign_not_mem_of_lookup (by decide)⟩

theorem isClear_topNames : topNames.IsClear :=
  ⟨rfl, sign_not_mem_of_lookup (by decide)⟩

variable {names : Names} {switch : Switch} {s s' : State} {word : Text} {words : List Text}

theorem inLetters_cons_iff {c : Char} {rest : Text} : names.InLetters switch (c :: rest) ↔
    names.short? c = some (.switch switch) ∨
      (∃ other, names.short? c = some (.switch other)) ∧ names.InLetters switch rest := by
  constructor
  · rintro (hc | ⟨hc, hrest⟩)
    · exact .inl hc
    · exact .inr ⟨⟨_, hc⟩, hrest⟩
  · rintro (hc | ⟨⟨_, hc⟩, hrest⟩)
    · exact .here hc
    · exact .later hc hrest

theorem turns_long_iff (hnames : names.IsClear) : names.Turns switch ('-' :: '-' :: word) ↔
    names.long? word = some (.switch switch) := by
  constructor
  · rintro (hname | hletters)
    · exact hname
    · rcases inLetters_cons_iff.mp hletters with hdash | ⟨⟨_, hdash⟩, -⟩ <;>
        exact absurd (hnames.dash.symm.trans hdash) nofun
  · exact .long

theorem turns_short_iff (hword : word.head? ≠ some '-') :
    names.Turns switch ('-' :: word) ↔ names.InLetters switch word := by
  constructor
  · intro h
    cases h with
    | long hname => exact absurd rfl hword
    | short hletters => exact hletters
  · exact .short

/-! ## Arguments -/

theorem Argument.of_stop (h : Argument.of word = .stop) : word = stopWord := by
  unfold Argument.of at h
  split at h <;> cases h
  rfl

theorem Argument.of_long {name : Text} (h : Argument.of word = .long name) :
    word = '-' :: '-' :: name ∧ word ≠ stopWord := by
  unfold Argument.of at h
  split at h <;> cases h
  next hstop => exact ⟨rfl, fun heq => hstop (by simpa [stopWord] using heq)⟩

theorem Argument.of_short {letters : Text} (h : Argument.of word = .short letters) :
    word = '-' :: letters ∧ word ≠ stopWord ∧ letters.head? ≠ some '-' := by
  unfold Argument.of at h
  split at h <;> cases h
  next hstop hlong _ =>
    have hhead : letters.head? ≠ some '-' := by
      intro hhead
      obtain ⟨rest, rfl⟩ := List.head?_eq_some_iff.mp hhead
      exact hlong rest rfl
    refine ⟨rfl, fun heq => hhead ?_, hhead⟩
    rw [(List.cons.inj heq).2]
    rfl

theorem Argument.of_plain {text : Text} (h : Argument.of word = .plain text) :
    word = text ∧ word ≠ stopWord ∧ ∀ (names : Names) switch, ¬ names.Turns switch word := by
  unfold Argument.of at h
  split at h <;> cases h
  · refine ⟨rfl, by decide, fun names switch hturns => ?_⟩
    cases hturns with
    | short hletters => cases hletters
  · next hstop hlong _ hdash =>
    refine ⟨rfl, fun heq => hstop heq, fun names switch hturns => ?_⟩
    cases hturns with
    | long => exact hdash _ rfl
    | short => exact hdash _ rfl

theorem not_gives_nil : ¬ Gives names switch [] := by
  rintro ⟨word, hword, -⟩
  cases hword

theorem not_gives_stop : ¬ Gives names switch (stopWord :: words) := by
  rintro ⟨word, hword, -⟩
  rw [List.takeWhile_cons_of_neg (by simp)] at hword
  cases hword

theorem gives_cons_iff (hword : word ≠ stopWord) :
    Gives names switch (word :: words) ↔ names.Turns switch word ∨ Gives names switch words := by
  unfold Gives
  rw [List.takeWhile_cons_of_pos (by simpa using hword)]
  simp

/-! ## Taking values -/

theorem watch_of_assign {b b' : BuildArguments} {value : Text} {slot : Slot}
    (h : assign b value slot = .ok b') : b'.watch = b.watch := by
  cases slot <;>
    · obtain ⟨_, -, h⟩ := Outcome.bind_eq_ok_iff.mp h
      cases h
      rfl

theorem isOn_of_take {slot : Slot} {value : Text} (h : s.take slot value = .ok s')
    (switch : Switch) : switch.isOn s'.taken = switch.isOn s.taken := by
  obtain ⟨b, hb, h⟩ := Outcome.bind_eq_ok_iff.mp h
  cases h
  cases switch with
  | watch => exact watch_of_assign hb
  | _ => rfl

theorem isOn_of_settle (h : settle s = .ok s') (switch : Switch) :
    switch.isOn s'.taken = switch.isOn s.taken := by
  unfold settle at h
  split at h
  · cases h
    rfl
  · cases h
  · exact isOn_of_take h switch

theorem isOn_of_option {slot : Slot} {attached : Option Text}
    (h : s.option slot attached = .ok s') (switch : Switch) :
    switch.isOn s'.taken = switch.isOn s.taken := by
  obtain ⟨t, ht, h⟩ := Outcome.bind_eq_ok_iff.mp h
  rw [← isOn_of_settle ht]
  split at h
  · exact isOn_of_take h switch
  · cases h
    rfl

theorem isOn_of_plain {trailing : Bool} (h : s.plain trailing word = .ok s') (switch : Switch) :
    switch.isOn s'.taken = switch.isOn s.taken := by
  unfold State.plain at h
  split at h
  · cases h
    rfl
  · split at h
    · cases h
    · obtain ⟨t, ht, h⟩ := Outcome.bind_eq_ok_iff.mp h
      cases h
      exact isOn_of_settle ht switch

/-! ## Turning switches on -/

theorem turnOn_eq_ok_iff {old new : Bool} : turnOn old = .ok new ↔ old = false ∧ new = true := by
  cases old <;> cases new <;> simp [turnOn]

/-- One switch more is on. -/
theorem isOn_of_switch {other : Switch} (h : s.switch other = .ok s') (switch : Switch) :
    switch.isOn s'.taken = true ↔ switch = other ∨ switch.isOn s.taken = true := by
  obtain ⟨t, ht, h⟩ := Outcome.bind_eq_ok_iff.mp h
  rw [← isOn_of_settle ht]
  cases other with
  | help => cases h
  | version => cases h
  | verbose | quiet | noColor | watch =>
    obtain ⟨new, hnew, h⟩ := Outcome.bind_eq_ok_iff.mp h
    obtain ⟨-, rfl⟩ := turnOn_eq_ok_iff.mp hnew
    cases h
    cases switch <;> simp [Switch.isOn]

theorem isOn_of_readShort {letters : Text} (h : readShort names s letters = .ok s')
    (switch : Switch) :
    switch.isOn s'.taken = true ↔ names.InLetters switch letters ∨ switch.isOn s.taken = true := by
  induction letters generalizing s with
  | nil =>
    cases h
    exact ⟨.inr, fun h => h.resolve_left nofun⟩
  | cons c rest ih =>
    rw [inLetters_cons_iff]
    unfold readShort at h
    split at h
    · cases h
    · next slot hc =>
      rw [isOn_of_option h]
      simp [hc]
    · next other hc =>
      obtain ⟨t, ht, h⟩ := Outcome.bind_eq_ok_iff.mp h
      rw [ih h, isOn_of_switch ht, hc]
      simp only [Option.some.injEq, Name.switch.injEq, exists_eq', true_and]
      rw [eq_comm (a := switch)]
      tauto

theorem isOn_of_readLong (hnames : names.IsClear) (h : readLong names s word = .ok s')
    (switch : Switch) : switch.isOn s'.taken = true ↔
      names.long? word = some (.switch switch) ∨ switch.isOn s.taken = true := by
  unfold readLong splitLong at h
  cases hsplit : Text.splitOnce '=' word with
  | none =>
    rw [hsplit] at h
    dsimp only at h
    split at h
    · cases h
    · next slot hname =>
      rw [isOn_of_option h, hname]
      simp
    · next other hname =>
      rw [if_neg (by simp)] at h
      rw [isOn_of_switch h, hname, Option.some.injEq, Name.switch.injEq, eq_comm (a := switch)]
  | some parts =>
    -- with a value attached, the word as a whole is no name
    have hword : names.long? word ≠ some (.switch switch) := by
      intro hname
      obtain ⟨rfl, -⟩ := Text.splitOnce_eq_some_iff.mp hsplit
      exact hnames.sign _ _ hname (by simp)
    rw [hsplit] at h
    dsimp only at h
    split at h
    · cases h
    · rw [isOn_of_option h]
      simp [hword]
    · cases h

/-! ## Both sides of the command -/

/-- Behind `--` no switch is turned on. -/
theorem isOn_of_readBuild_trailing (h : readBuild true s words = .ok s') (switch : Switch) :
    switch.isOn s'.taken = switch.isOn s.taken := by
  induction words generalizing s with
  | nil => exact isOn_of_settle h switch
  | cons word words ih =>
    rw [readBuild, if_pos rfl] at h
    obtain ⟨t, ht, h⟩ := Outcome.bind_eq_ok_iff.mp h
    rw [ih h, isOn_of_plain ht]

/-- **Behind the command, what is on was on before or is given by a word.** -/
theorem isOn_of_readBuild (h : readBuild false s words = .ok s') (switch : Switch) :
    switch.isOn s'.taken = true ↔ Gives buildNames switch words ∨ switch.isOn s.taken = true := by
  induction words generalizing s with
  | nil =>
    rw [isOn_of_settle h]
    exact (or_iff_right not_gives_nil).symm
  | cons word words ih =>
    rw [readBuild, if_neg Bool.false_ne_true] at h
    split at h
    · next hword =>
      obtain rfl := Argument.of_stop hword
      rw [isOn_of_readBuild_trailing h]
      exact (or_iff_right not_gives_stop).symm
    · next name hword =>
      obtain ⟨rfl, hstop⟩ := Argument.of_long hword
      obtain ⟨t, ht, h⟩ := Outcome.bind_eq_ok_iff.mp h
      rw [ih h, isOn_of_readLong isClear_buildNames ht, gives_cons_iff hstop,
        turns_long_iff isClear_buildNames]
      tauto
    · next letters hword =>
      obtain ⟨rfl, hstop, hhead⟩ := Argument.of_short hword
      obtain ⟨t, ht, h⟩ := Outcome.bind_eq_ok_iff.mp h
      rw [ih h, isOn_of_readShort ht, gives_cons_iff hstop, turns_short_iff hhead]
      tauto
    · next text hword =>
      obtain ⟨rfl, hstop, hturns⟩ := Argument.of_plain hword
      obtain ⟨t, ht, h⟩ := Outcome.bind_eq_ok_iff.mp h
      rw [ih h, isOn_of_plain ht, gives_cons_iff hstop,
        or_iff_right (hturns buildNames switch)]

/-- Both switches are on, for more and for less to say. -/
def Clash (line : CommandLine) : Prop :=
  line.verbose = true ∧ line.quiet = true

theorem checkConflict_eq_ok_iff {line line' : CommandLine} :
    checkConflict line = .ok line' ↔ line' = line ∧ ¬ Clash line := by
  unfold checkConflict Clash
  rw [← Bool.and_eq_true]
  split
  · next h => exact ⟨nofun, fun h' => absurd h h'.2⟩
  · next h => exact ⟨fun heq => ⟨(Except.ok.inj heq).symm, h⟩, fun h' => by rw [h'.1]⟩

theorem readTop_trailing_ne_ok {line : CommandLine} : readTop true s words ≠ .ok line := by
  cases words with
  | nil => nofun
  | cons word words => nofun

/-- The words in front of the command are read on top of a state, and the words behind it anew. -/
structure Divides (s : State) (words front back : List Text) (top : CommandLine) (sub : State) :
    Prop where
  words : words = front ++ "build".toList :: back
  first : "build".toList ∉ front
  isOn : ∀ switch : Switch,
    switch.isOn top = true ↔ Gives topNames switch front ∨ switch.isOn s.taken = true
  behind : readBuild false .start back = .ok sub

/-- Nothing stands in front of the command. -/
theorem Divides.atCommand {sub : State} (h : readBuild false .start words = .ok sub) :
    Divides s ("build".toList :: words) [] words s.taken sub where
  words := rfl
  first := List.not_mem_nil
  isOn _ := (or_iff_right not_gives_nil).symm
  behind := h

/-- One more word in front of the command. -/
theorem Divides.cons {t sub : State} {front back : List Text} {top : CommandLine}
    (h : Divides t words front back top sub) (hstop : word ≠ stopWord)
    (hbuild : word ≠ "build".toList) (hturns : ∀ switch : Switch,
      switch.isOn t.taken = true ↔ topNames.Turns switch word ∨ switch.isOn s.taken = true) :
    Divides s (word :: words) (word :: front) back top sub where
  words := by rw [h.words, List.cons_append]
  first := fun hmem => (List.mem_cons.mp hmem).elim (fun heq => hbuild heq.symm) h.first
  isOn switch := by
    rw [h.isOn, hturns, gives_cons_iff hstop]
    tauto
  behind := h.behind

/-- **In front of the command, what is on was on before or is given by a word**, and no side has both
switches on. -/
theorem exists_of_readTop {line : CommandLine} (h : readTop false s words = .ok line) :
    ∃ front back top sub, Divides s words front back top sub ∧ ¬ Clash top ∧ ¬ Clash sub.taken ∧
      line = merge top sub.taken := by
  induction words generalizing s with
  | nil => cases h
  | cons word words ih =>
    rw [readTop, if_neg Bool.false_ne_true] at h
    split at h
    · next hbuild =>
      obtain ⟨sub, hsub, h⟩ := Outcome.bind_eq_ok_iff.mp h
      obtain ⟨line', hline', h⟩ := Outcome.bind_eq_ok_iff.mp h
      obtain ⟨top, htop, h⟩ := Outcome.bind_eq_ok_iff.mp h
      obtain ⟨rfl, hback⟩ := checkConflict_eq_ok_iff.mp hline'
      obtain ⟨rfl, hfront⟩ := checkConflict_eq_ok_iff.mp htop
      obtain rfl := Except.ok.inj h
      subst hbuild
      exact ⟨[], words, _, sub, .atCommand hsub, hfront, hback, rfl⟩
    · next hbuild =>
      split at h
      · cases h
      · split at h
        · exact absurd h readTop_trailing_ne_ok
        · next name hword =>
          obtain ⟨rfl, hstop⟩ := Argument.of_long hword
          obtain ⟨t, ht, h⟩ := Outcome.bind_eq_ok_iff.mp h
          obtain ⟨front, back, top, sub, hdivides, hrest⟩ := ih h
          refine ⟨_, back, top, sub, hdivides.cons hstop hbuild fun switch => ?_, hrest⟩
          rw [isOn_of_readLong isClear_topNames ht, turns_long_iff isClear_topNames]
        · next letters hword =>
          obtain ⟨rfl, hstop, hhead⟩ := Argument.of_short hword
          obtain ⟨t, ht, h⟩ := Outcome.bind_eq_ok_iff.mp h
          obtain ⟨front, back, top, sub, hdivides, hrest⟩ := ih h
          refine ⟨_, back, top, sub, hdivides.cons hstop hbuild fun switch => ?_, hrest⟩
          rw [isOn_of_readShort ht, turns_short_iff hhead]
        · cases h

/-! ## More or less to say -/

/-- What the words on the two sides of the command say about how much is said. -/
structure Volume (line : CommandLine) (front back : List Text) : Prop where
  notBothBefore : ¬ (Gives topNames .verbose front ∧ Gives topNames .quiet front)
  notBothBehind : ¬ (Gives buildNames .verbose back ∧ Gives buildNames .quiet back)
  verbose : line.verbose = true ↔ Gives topNames .verbose front ∨ Gives buildNames .verbose back
  quiet : line.quiet = true ↔ Gives topNames .quiet front ∨ Gives buildNames .quiet back
  /-- Both switches are on exactly if they stand on different sides of the command. -/
  clash : Clash line ↔ Gives topNames .verbose front ∧ Gives buildNames .quiet back ∨
    Gives topNames .quiet front ∧ Gives buildNames .verbose back

/-- **The two switches exclude each other on one side of the command only.** -/
theorem exists_volume {arguments : List Text} {line : CommandLine}
    (h : parse arguments = .ok line) :
    ∃ front back, arguments = front ++ "build".toList :: back ∧ "build".toList ∉ front ∧
      Volume line front back := by
  obtain ⟨front, back, top, sub, hdivides, hbefore, hbehind, rfl⟩ := exists_of_readTop h
  have htop : ∀ switch : Switch, Switch.isOn State.start.taken switch = false →
      (switch.isOn top = true ↔ Gives topNames switch front) := fun switch hstart => by
    rw [hdivides.isOn, hstart, or_iff_left Bool.false_ne_true]
  have hsub : ∀ switch : Switch, Switch.isOn State.start.taken switch = false →
      (switch.isOn sub.taken = true ↔ Gives buildNames switch back) := fun switch hstart => by
    rw [isOn_of_readBuild hdivides.behind, hstart, or_iff_left Bool.false_ne_true]
  have hverbose : top.verbose = true ↔ _ := htop .verbose rfl
  have hquiet : top.quiet = true ↔ _ := htop .quiet rfl
  have hverbose' : sub.taken.verbose = true ↔ _ := hsub .verbose rfl
  have hquiet' : sub.taken.quiet = true ↔ _ := hsub .quiet rfl
  unfold Clash at hbefore hbehind
  rw [hverbose, hquiet] at hbefore
  rw [hverbose', hquiet'] at hbehind
  refine ⟨front, back, hdivides.words, hdivides.first, hbefore, hbehind, ?_, ?_, ?_⟩
  · show (top.verbose || sub.taken.verbose) = true ↔ _
    rw [Bool.or_eq_true, hverbose, hverbose']
  · show (top.quiet || sub.taken.quiet) = true ↔ _
    rw [Bool.or_eq_true, hquiet, hquiet']
  · show (top.verbose || sub.taken.verbose) = true ∧ (top.quiet || sub.taken.quiet) = true ↔ _
    rw [Bool.or_eq_true, Bool.or_eq_true, hverbose, hverbose', hquiet, hquiet']
    constructor
    · rintro ⟨hmore | hmore, hless | hless⟩
      · exact absurd ⟨hmore, hless⟩ hbefore
      · exact .inl ⟨hmore, hless⟩
      · exact .inr ⟨hless, hmore⟩
      · exact absurd ⟨hmore, hless⟩ hbehind
    · rintro (⟨hmore, hless⟩ | ⟨hless, hmore⟩)
      · exact ⟨.inl hmore, .inr hless⟩
      · exact ⟨.inr hmore, .inl hless⟩

/-- The one switch in front of the command, the other among letters behind it. -/
def clashingArguments : List Text :=
  ["-v".toList, "build".toList, "main.ts".toList, "-wq".toList, "--out-file".toList, "v".toList]

theorem exists_volume_clashing : ∃ line, parse clashingArguments = .ok line ∧ Clash line ∧
    ∃ front back, clashingArguments = front ++ "build".toList :: back ∧ "build".toList ∉ front ∧
      Volume line front back := by
  have hparse : (parse clashingArguments).map (fun line => line.verbose && line.quiet) = .ok true := by
    decide +kernel
  obtain ⟨line, hline⟩ := Outcome.exists_eq_ok (x := parse clashingArguments) (by decide +kernel)
  have hclash := Outcome.eq_of_map_eq_ok hline hparse
  exact ⟨line, hline, Bool.and_eq_true_iff.mp hclash, exists_volume hline⟩

end AmdBundle.CommandLine
