import AmdBundle.Proofs.Settings.Record
import AmdBundle.Settings.Load

/-!
# The fields of the settings

* `EachField` : the fields with their names, their decoders, what a command line gives for them, and
  their components;
* `EachField.imp`, `EachField.exists_of_mem_names`, `EachField.ext` : from each field to all settings;
* `gives` : what a command line gives is read as it is; `reads_builtIn` : the defaults;
* `owns` : every field has a component of its own; `single` : only a target can be a table.
-/

set_option autoImplicit false

namespace AmdBundle.Settings

/-! ## All fields -/

/-- The imports of a command line, those of whole modules first, if there are any. -/
def importsGiven (b : BuildArguments) : Option (List ImportAs) :=
  if b.importAs ++ b.importAsDefault = [] then none else some (b.importAs ++ b.importAsDefault)

/-- What is true of every field: of its name, its decoder, what a command line gives for it, and its
component. -/
structure EachField (P : {α : Type} → String → Decoder α → (BuildArguments → Option α) →
    (Settings → α) → Prop) : Prop where
  input : P "input" (.optional .path) (fun b => b.input.map some) Settings.input
  outFile : P "outFile" (.optional .path) (fun b => b.outFile.map some) Settings.outFile
  target : P "target" (.optional Target.decoder) (fun b => b.target.map some) Settings.target
  exportAs : P "exportAs" (.optional .text) (fun b => b.exportAs.map some) Settings.exportAs
  importAs : P "importAs" (.list ImportAs.decoder) importsGiven Settings.importAs
  entryPoint : P "entryPoint" (.optional .text) (fun b => b.entryPoint.map some) Settings.entryPoint
  projectRoot : P "projectRoot" (.optional .path) (fun b => b.projectRoot.map some)
    Settings.projectRoot
  watch : P "watch" .bool (fun b => if b.watch then some true else none) Settings.watch
  compiler : P "compiler" .text BuildArguments.compiler Settings.compiler
  debounceMs : P "debounceMs" .count (fun _ => none) Settings.debounceMs
  settleTickMs : P "settleTickMs" .count (fun _ => none) Settings.settleTickMs
  settleTimeoutMs : P "settleTimeoutMs" .count (fun _ => none) Settings.settleTimeoutMs

section
variable {P Q : {α : Type} → String → Decoder α → (BuildArguments → Option α) → (Settings → α) → Prop}

theorem EachField.imp (h : EachField P)
    (hPQ : ∀ {α : Type} {name : String} {d : Decoder α} {given : BuildArguments → Option α}
      {get : Settings → α}, P name d given get → Q name d given get) : EachField Q :=
  ⟨hPQ h.input, hPQ h.outFile, hPQ h.target, hPQ h.exportAs, hPQ h.importAs, hPQ h.entryPoint,
    hPQ h.projectRoot, hPQ h.watch, hPQ h.compiler, hPQ h.debounceMs, hPQ h.settleTickMs,
    hPQ h.settleTimeoutMs⟩

theorem EachField.and (hP : EachField P) (hQ : EachField Q) :
    EachField fun name d given get => P name d given get ∧ Q name d given get :=
  ⟨⟨hP.input, hQ.input⟩, ⟨hP.outFile, hQ.outFile⟩, ⟨hP.target, hQ.target⟩,
    ⟨hP.exportAs, hQ.exportAs⟩, ⟨hP.importAs, hQ.importAs⟩, ⟨hP.entryPoint, hQ.entryPoint⟩,
    ⟨hP.projectRoot, hQ.projectRoot⟩, ⟨hP.watch, hQ.watch⟩, ⟨hP.compiler, hQ.compiler⟩,
    ⟨hP.debounceMs, hQ.debounceMs⟩, ⟨hP.settleTickMs, hQ.settleTickMs⟩,
    ⟨hP.settleTimeoutMs, hQ.settleTimeoutMs⟩⟩

theorem EachField.exists_of_mem_names (h : EachField P) {name : String} (hname : name ∈ shape.names) :
    ∃ (α : Type) (d : Decoder α) (given : BuildArguments → Option α) (get : Settings → α),
      P name d given get := by
  simp only [Shape.names, shape, List.map_cons, List.map_nil, List.mem_cons, List.not_mem_nil,
    or_false, Field.of] at hname
  rcases hname with rfl | rfl | rfl | rfl | rfl | rfl | rfl | rfl | rfl | rfl | rfl | rfl
  · exact ⟨_, _, _, _, h.input⟩
  · exact ⟨_, _, _, _, h.outFile⟩
  · exact ⟨_, _, _, _, h.target⟩
  · exact ⟨_, _, _, _, h.exportAs⟩
  · exact ⟨_, _, _, _, h.importAs⟩
  · exact ⟨_, _, _, _, h.entryPoint⟩
  · exact ⟨_, _, _, _, h.projectRoot⟩
  · exact ⟨_, _, _, _, h.watch⟩
  · exact ⟨_, _, _, _, h.compiler⟩
  · exact ⟨_, _, _, _, h.debounceMs⟩
  · exact ⟨_, _, _, _, h.settleTickMs⟩
  · exact ⟨_, _, _, _, h.settleTimeoutMs⟩

end

/-- Settings are given by their components. -/
theorem EachField.ext {s s' : Settings} (h : EachField fun _ _ _ get => get s = get s') : s = s' := by
  obtain ⟨h1, h2, h3, h4, h5, h6, h7, h8, h9, h10, h11, h12⟩ := h
  cases s
  cases s'
  simp_all

/-! ## Names -/

def IsKnown (key : Text) : Prop :=
  ∃ name ∈ shape.names, name.toList = key

theorem isKnown_iff {key : Text} : IsKnown key ↔ ∃ field, shape.field? key = some field := by
  constructor
  · rintro ⟨name, hname, rfl⟩
    obtain ⟨field, hfield, rfl⟩ := List.mem_map.mp hname
    exact Option.isSome_iff_exists.mp (List.find?_isSome.mpr ⟨field, hfield, by simp⟩)
  · rintro ⟨field, hfield⟩
    obtain ⟨hmem, hname⟩ := Decoder.field_of_field? hfield
    exact ⟨field.name, List.mem_map_of_mem hmem, hname⟩

/-! ## What the command line gives -/

/-- What a command line gives for a field, as a value and as a setting that is read as the value. -/
inductive Gives {α : Type} (d : Decoder α) : Option α → Option Setting → Prop where
  | nothing : Gives d none none
  | value {a : α} {setting : Setting} (single : setting.isTable = false)
      (reads : d.ofSetting setting = .ok a) : Gives d (some a) (some setting)

/-- The fields that a command line sets. -/
def argumentFields (b : BuildArguments) : List (Text × Setting) :=
  given "input" .text b.input ++ given "outFile" .text b.outFile ++
    given "target" (fun t => .text t.name.toList) b.target ++
    given "exportAs" .text b.exportAs ++ givenImports b ++
    given "entryPoint" .text b.entryPoint ++ given "projectRoot" .text b.projectRoot ++
    given "watch" .flag (if b.watch then some true else none) ++
    given "compiler" .text b.compiler

/-- Their names, in that order. -/
def argumentNames : List String :=
  ["input", "outFile", "target", "exportAs", "importAs", "entryPoint", "projectRoot", "watch",
    "compiler"]

theorem keys_given {α : Type} (name : String) (setting : α → Setting) (value : Option α) :
    ((given name setting value).map Prod.fst).Sublist [name.toList] := by
  cases value with
  | none => exact List.nil_sublist _
  | some a => exact List.Sublist.refl _

theorem givenImports_eq (b : BuildArguments) :
    givenImports b = given "importAs" (fun imports => .list (imports.map fun i =>
      Setting.ofJson i.toJson)) (importsGiven b) := by
  unfold givenImports importsGiven
  split
  · next h =>
    rw [if_pos h]
    rfl
  · next h =>
    rw [if_neg h]
    rfl

theorem keys_argumentFields (b : BuildArguments) :
    ((argumentFields b).map Prod.fst).Sublist (argumentNames.map String.toList) := by
  simp only [argumentFields, givenImports_eq, List.map_append]
  exact ((((((((keys_given _ _ _).append (keys_given _ _ _)).append (keys_given _ _ _)).append
    (keys_given _ _ _)).append (keys_given _ _ _)).append (keys_given _ _ _)).append
    (keys_given _ _ _)).append (keys_given _ _ _)).append (keys_given _ _ _)

theorem lookup_ofArguments (key : Text) (b : BuildArguments) :
    Setting.lookup key (ofArguments b).fields = Setting.lookup key (argumentFields b) := by
  have hnodup : ((argumentFields b).map Prod.fst).Nodup :=
    (keys_argumentFields b).nodup (by decide)
  show Setting.lookup key (Setting.overlayFields [] (argumentFields b)) = _
  rw [Setting.lookup_overlayFields hnodup]
  exact Setting.onTop_none _

theorem lookup_given {α : Type} (key name : String) (setting : α → Setting) (value : Option α) :
    Setting.lookup key.toList (given name setting value) =
      if name = key then value.map setting else none := by
  cases value with
  | none => simp [given, Setting.lookup]
  | some a => simp [given, Setting.lookup, String.toList_inj]

theorem gives_map {α β : Type} {d : Decoder α} (f : β → α) (setting : β → Setting)
    (h : ∀ b, (setting b).isTable = false ∧ d.ofSetting (setting b) = .ok (f b)) (o : Option β) :
    Gives d (o.map f) (o.map setting) := by
  cases o with
  | none => exact .nothing
  | some b => exact .value (h b).1 (h b).2

theorem ofSetting_import (i : ImportAs) :
    ImportAs.decoder.ofSetting (Setting.ofJson i.toJson) = .ok i := by
  obtain ⟨kind, outer, inner⟩ := i
  have htable : Setting.ofJson (ImportAs.mk kind outer inner).toJson =
      .table [("inner".toList, .text inner), ("outer".toList, .text outer),
        ("type".toList, .text kind.name.toList)] := rfl
  rw [htable]
  cases kind with
  | byDefault => rfl
  | asNamespace => rfl

theorem settingsFrom_imports (imports : List ImportAs) (n : Nat) :
    Decoder.settingsFrom ImportAs.decoder n (imports.map fun i => Setting.ofJson i.toJson) =
      .ok imports := by
  induction imports generalizing n with
  | nil => rfl
  | cons i imports ih =>
    rw [List.map_cons, Decoder.settingsFrom, ofSetting_import, ih]
    rfl

/-- What a command line gives for a field stands under its name. -/
theorem gives : EachField fun name d given _ =>
    ∀ b, Gives d (given b) (Setting.lookup name.toList (argumentFields b)) := by
  constructor
  all_goals
    intro b
    simp only [argumentFields, givenImports_eq, Setting.lookup_append, lookup_given, String.reduceEq,
      reduceIte, Option.or_none, Option.none_or]
  case input => exact gives_map some .text (fun _ => ⟨rfl, rfl⟩) _
  case outFile => exact gives_map some .text (fun _ => ⟨rfl, rfl⟩) _
  case target => exact gives_map some _ (fun t => ⟨rfl, by cases t <;> rfl⟩) _
  case exportAs => exact gives_map some .text (fun _ => ⟨rfl, rfl⟩) _
  case importAs =>
    simpa using
      gives_map id _ (fun imports => ⟨rfl, settingsFrom_imports imports 0⟩) (importsGiven b)
  case entryPoint => exact gives_map some .text (fun _ => ⟨rfl, rfl⟩) _
  case projectRoot => exact gives_map some .text (fun _ => ⟨rfl, rfl⟩) _
  case watch =>
    simpa using gives_map id .flag (fun _ => ⟨rfl, rfl⟩) (if b.watch then some true else none)
  case compiler => simpa using gives_map id .text (fun _ => ⟨rfl, rfl⟩) b.compiler
  all_goals exact .nothing

/-! ## What is there without being set -/

theorem builtIn_fields : builtIn.fields =
    [("compiler".toList, .text defaultCompiler), ("debounceMs".toList, .natural 50),
      ("settleTickMs".toList, .natural 100), ("settleTimeoutMs".toList, .natural 1000),
      ("watch".toList, .flag false)] := rfl

/-- What is built in are the defaults. -/
theorem reads_builtIn : EachField fun name d _ get =>
    Reads d (get default) (get default) (Setting.lookup name.toList builtIn.fields) := by
  constructor
  all_goals
    rw [builtIn_fields]
    rfl

theorem isTable_builtIn {key : Text} {setting : Setting}
    (h : Setting.lookup key builtIn.fields = some setting) : setting.isTable = false := by
  have hmem := Setting.mem_of_lookup h
  rw [builtIn_fields] at hmem
  simp only [List.mem_cons, Prod.mk.injEq, List.not_mem_nil, or_false] at hmem
  rcases hmem with ⟨-, rfl⟩ | ⟨-, rfl⟩ | ⟨-, rfl⟩ | ⟨-, rfl⟩ | ⟨-, rfl⟩ <;> rfl

/-! ## What belongs to a field -/

/-- Every field has a component of its own. -/
theorem owns : EachField fun name d _ get => shape.Owns name d get := by
  constructor
  all_goals
    refine ⟨⟨_, rfl, fun _ _ => rfl⟩, ?_⟩
    simp only [shape, List.forall_mem_cons]
    refine ⟨?_, ?_, ?_, ?_, ?_, ?_, ?_, ?_, ?_, ?_, ?_, ?_, nofun⟩
    all_goals first | exact .inl rfl | exact .inr (Field.keeps_of fun _ _ => rfl)

/-- Only a target can be written as a table. -/
theorem single : EachField fun name d _ _ =>
    name = "target" ∨ ∀ fields a, d.ofSetting (.table fields) ≠ .ok a := by
  constructor
  case target => exact .inl rfl
  all_goals exact .inr fun _ _ => nofun

end AmdBundle.Settings
