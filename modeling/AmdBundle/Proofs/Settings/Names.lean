import AmdBundle.Proofs.Outcome
import AmdBundle.Proofs.ResourceKey
import AmdBundle.Settings.Check

/-!
# Names as arguments and as settings

Exports and imports are named in arguments, which are parsed, and in settings, which are checked. Both
take the same names. An import is written with a sign between its two names, and since no name has that
sign in it, there is one way to read it.

* `IsImportName`, `IsExportName` : the names, by their characters;
* `check_eq_ok_iff` : all that is checked of settings;
* `parseExportAs_eq_ok_iff`, `parseImportAs_eq_ok_iff` : the arguments that are read;
* `names_agree` : settings and arguments take the same names.
-/

set_option autoImplicit false

namespace AmdBundle

/-- How an import is written as an argument. -/
def ImportAs.spelling (i : ImportAs) : Text :=
  i.outer ++ '=' :: i.inner

namespace Settings

/-! ## Names by their characters -/

def IsWordChar (c : Char) : Prop :=
  Text.isLetter c = true ∨ Text.isNumeral c = true ∨ c = '_' ∨ c = '$'

structure IsImportName (name : Text) : Prop where
  nonempty : name ≠ []
  chars : ∀ c ∈ name, IsWordChar c ∨ c = '-'

/-- The word for `module.exports`, or a word that begins with no numeral. -/
def IsExportName (name : Text) : Prop :=
  name = ExportAs.commonJsName ∨ ∃ first rest, name = first :: rest ∧
    (Text.isLetter first = true ∨ first = '_' ∨ first = '$') ∧ ∀ c ∈ rest, IsWordChar c

theorem isNamePart_iff {c : Char} : isNamePart c = true ↔ IsWordChar c := by
  simp only [isNamePart, IsWordChar, Bool.or_eq_true, beq_iff_eq, or_assoc]

theorem isImportName_iff {name : Text} : isImportName name = true ↔ IsImportName name := by
  unfold isImportName
  simp only [Bool.and_eq_true, List.all_eq_true, Bool.or_eq_true, isNamePart_iff, beq_iff_eq,
    Bool.not_eq_true', List.isEmpty_eq_false_iff]
  exact ⟨fun ⟨hne, hchars⟩ => ⟨hne, hchars⟩, fun h => ⟨h.nonempty, h.chars⟩⟩

theorem isExportName_iff {name : Text} : isExportName name = true ↔ IsExportName name := by
  unfold isExportName IsExportName
  rw [Bool.or_eq_true, beq_iff_eq]
  apply or_congr_right
  cases name with
  | nil => simp [isIdentifier]
  | cons first rest =>
    simp [isIdentifier, isNameStart, isNamePart_iff, or_assoc, List.all_eq_true]

theorem IsImportName.sign_not_mem {name : Text} (h : IsImportName name) : '=' ∉ name := by
  intro hmem
  have hchar := h.chars '=' hmem
  unfold IsWordChar at hchar
  revert hchar
  decide +kernel

/-! ## Settings that are fine -/

theorem require_eq_ok_iff {condition : Bool} {e : SettingsError} :
    require condition e = .ok () ↔ condition = true := by
  unfold require
  cases condition <;> simp

theorem checkExportAs_eq_ok_iff {name : Text} :
    checkExportAs name = .ok () ↔ IsExportName name := by
  rw [checkExportAs, require_eq_ok_iff, isExportName_iff]

theorem checkImport_eq_ok_iff {i : ImportAs} :
    checkImport i = .ok () ↔ IsImportName i.outer ∧ IsImportName i.inner := by
  rw [checkImport, require_eq_ok_iff, Bool.and_eq_true, isImportName_iff, isImportName_iff]

/-- All that is checked, one thing after the other. -/
theorem check_eq_ok_iff {s : Settings} : s.check = .ok () ↔
    s.input.isSome = true ∧ (∀ name ∈ s.exportAs, IsExportName name) ∧
      (∀ i ∈ s.importAs, IsImportName i.outer ∧ IsImportName i.inner) ∧
      s.entryPoint.all isNamed = true ∧ isNamed s.compiler = true ∧
      (0 < s.debounceMs ∧ s.debounceMs ≤ maxDebounceMs) ∧ 0 < s.settleTickMs ∧
      s.settleTickMs ≤ s.settleTimeoutMs := by
  unfold check
  simp only [Outcome.seq_eq_ok_iff, Outcome.forM_eq_ok_iff, require_eq_ok_iff,
    checkExportAs_eq_ok_iff, checkImport_eq_ok_iff, Option.mem_toList, Option.mem_def,
    Bool.and_eq_true, decide_eq_true_eq]

/-! ## Arguments that are read -/

theorem parseExportAs_eq_ok_iff {name out : Text} :
    parseExportAs name = .ok out ↔ out = name ∧ IsExportName name := by
  have hempty : ¬ IsExportName [] := by
    rw [← isExportName_iff]
    decide
  unfold parseExportAs
  split
  · next hname =>
    rw [List.isEmpty_iff] at hname
    subst hname
    simp [hempty]
  · split
    · next hname => simp [isExportName_iff.mp hname, eq_comm]
    · next hname => simp [mt isExportName_iff.mpr hname]

theorem parseImportAs_eq_ok_iff {kind : ImportKind} {text : Text} {i : ImportAs} :
    parseImportAs kind text = .ok i ↔
      i.kind = kind ∧ text = i.spelling ∧ IsImportName i.outer ∧ IsImportName i.inner := by
  unfold parseImportAs
  constructor
  · intro h
    split at h
    · cases h
    · next outer inner hsplit =>
      split at h
      · next hnames =>
        obtain rfl := Except.ok.inj h
        rw [Bool.and_eq_true, isImportName_iff, isImportName_iff] at hnames
        exact ⟨rfl, (Text.splitOnce_eq_some_iff.mp hsplit).1, hnames⟩
      · cases h
  · rintro ⟨rfl, rfl, houter, hinner⟩
    have hsplit : Text.splitOnce '=' i.spelling = some (i.outer, i.inner) :=
      Text.splitOnce_eq_some_iff.mpr ⟨rfl, houter.sign_not_mem⟩
    rw [hsplit]
    dsimp only
    rw [isImportName_iff.mpr houter, isImportName_iff.mpr hinner]
    rfl

theorem parseImportAs_spelling_iff {i : ImportAs} :
    parseImportAs i.kind i.spelling = .ok i ↔ IsImportName i.outer ∧ IsImportName i.inner := by
  rw [parseImportAs_eq_ok_iff]
  exact ⟨fun h => h.2.2, fun h => ⟨rfl, rfl, h⟩⟩

/-- No sign stands in a name, so the first one divides. -/
theorem eq_of_spelling_eq {i j : ImportAs} (hi : IsImportName i.outer) (hj : IsImportName j.outer)
    (h : i.spelling = j.spelling) : i.outer = j.outer ∧ i.inner = j.inner := by
  have hfirst : Text.splitOnce '=' i.spelling = some (i.outer, i.inner) :=
    Text.splitOnce_eq_some_iff.mpr ⟨rfl, hi.sign_not_mem⟩
  have hsecond : Text.splitOnce '=' j.spelling = some (j.outer, j.inner) :=
    Text.splitOnce_eq_some_iff.mpr ⟨rfl, hj.sign_not_mem⟩
  rw [h, hsecond, Option.some.injEq, Prod.mk.injEq] at hfirst
  exact ⟨hfirst.1.symm, hfirst.2.symm⟩

/-! ## The same names -/

/-- Arguments and settings take the same names. -/
structure NamesAgree : Prop where
  /-- An import is read from two names with a sign between them, and from nothing else. -/
  parsed : ∀ kind text outer inner, parseImportAs kind text = .ok ⟨kind, outer, inner⟩ ↔
    text = outer ++ '=' :: inner ∧ IsImportName outer ∧ IsImportName inner
  kind : ∀ kind text i, parseImportAs kind text = .ok i → i.kind = kind
  unique : ∀ i j : ImportAs, IsImportName i.outer → IsImportName j.outer →
    i.spelling = j.spelling → i.outer = j.outer ∧ i.inner = j.inner
  /-- Settings that are fine otherwise are so with an import exactly if it is read from its
  spelling. -/
  imported : ∀ (s : Settings) i, { s with importAs := [i] }.check = .ok () ↔
    { s with importAs := [] }.check = .ok () ∧ parseImportAs i.kind i.spelling = .ok i
  unchanged : ∀ name out, parseExportAs name = .ok out → out = name
  exported : ∀ name, parseExportAs name = .ok name ↔ checkExportAs name = .ok ()
  /-- The same for settings with an export. -/
  checked : ∀ (s : Settings) name, { s with exportAs := some name }.check = .ok () ↔
    { s with exportAs := none }.check = .ok () ∧ parseExportAs name = .ok name

/-- **Arguments and settings take the same names.** -/
theorem names_agree : NamesAgree where
  parsed kind text outer inner := by
    rw [parseImportAs_eq_ok_iff]
    exact ⟨fun h => h.2, fun h => ⟨rfl, h⟩⟩
  kind _ _ _ h := (parseImportAs_eq_ok_iff.mp h).1
  unique _ _ hi hj h := eq_of_spelling_eq hi hj h
  imported s i := by
    rw [check_eq_ok_iff, check_eq_ok_iff, parseImportAs_spelling_iff]
    simp only [Option.mem_def, List.mem_cons, List.not_mem_nil, or_false, forall_eq,
      IsEmpty.forall_iff, implies_true, true_and]
    tauto
  unchanged _ _ h := (parseExportAs_eq_ok_iff.mp h).1
  exported name := by
    rw [parseExportAs_eq_ok_iff, checkExportAs_eq_ok_iff]
    exact ⟨fun h => h.2, fun h => ⟨rfl, h⟩⟩
  checked s name := by
    rw [check_eq_ok_iff, check_eq_ok_iff, parseExportAs_eq_ok_iff]
    simp only [Option.mem_def, Option.some.injEq, forall_eq', reduceCtorEq, IsEmpty.forall_iff,
      implies_true, true_and]
    tauto

end Settings

end AmdBundle
