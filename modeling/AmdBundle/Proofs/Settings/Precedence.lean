import AmdBundle.Proofs.Json.RoundTrip
import AmdBundle.Proofs.Settings.Fields
import Mathlib

/-!
# Which layer a setting comes from

Four layers say what a field is: the command line, the environment, the settings file and the
defaults. The highest one that says something decides, whatever the others say. Only a target can be
written as a table, and then the tables of the environment and of the file are united.

* `FileHolds`, `OncePerField` : a settings file with a JSON object; variables for different fields;
* `lookup_stack` : what stands under a key behind all layers;
* `Chosen`, `Layered` : the value of a field; of all fields;
* `load_eq_ok_iff` : the settings that are loaded;
* `not_loadsHighest` : a table of the environment does not hide a table of the file.
-/

set_option autoImplicit false

namespace AmdBundle

/-! ## Objects in a text -/

namespace Json

theorem mem_of_field? {key : Text} {members : List (Text × Json)} {v : Json}
    (h : field? key members = some v) : (key, v) ∈ members := by
  induction members with
  | nil => cases h
  | cons first members ih =>
    unfold field? at h
    split at h
    · next hkey =>
      obtain rfl := Option.some.inj h
      simp [← hkey]
    · exact List.mem_cons_of_mem _ (ih h)

theorem exists_field?_of_mem {members : List (Text × Json)} {m : Text × Json} (h : m ∈ members) :
    ∃ v, field? m.1 members = some v := by
  induction members with
  | nil => cases h
  | cons first members ih =>
    by_cases hkey : first.1 = m.1
    · exact ⟨first.2, by rw [field?, if_pos hkey]⟩
    · have hmore : m ∈ members := (List.mem_cons.mp h).resolve_left fun heq => hkey (heq ▸ rfl)
      obtain ⟨v, hv⟩ := ih hmore
      exact ⟨v, by rw [field?, if_neg hkey, hv]⟩

theorem value_skipSpace (depth : Nat) (text : Text) :
    value depth (skipSpace text) = value depth text := by
  have hskip : skipSpace (skipSpace text) = skipSpace text := List.dropWhile_idempotent ..
  cases depth <;> simp only [value, valueWith, hskip]

/-- A text that is read as an object begins with a brace. -/
theorem exists_of_value_object {depth : Nat} {text rest : Text} {members : List (Text × Json)}
    (h : value depth text = .ok (.object members, rest)) :
    ∃ behind, skipSpace text = '{' :: behind := by
  have hwith : ∃ inner, valueWith inner text = .ok (.object members, rest) := by
    cases depth with
    | zero => exact ⟨_, h⟩
    | succ depth => exact ⟨_, h⟩
  obtain ⟨inner, hwith⟩ := hwith
  unfold valueWith at hwith
  split at hwith
  · cases hwith
  · next c behind htext =>
    split at hwith
    · next found hscalar =>
      rw [hwith] at hscalar
      exact absurd rfl ((ne_of_scalar hscalar).2 members)
    · split at hwith
      · cases inner with
        | none => cases hwith
        | some read =>
          obtain ⟨found, -, hfound⟩ := Outcome.map_eq_ok_iff.mp hwith
          cases hfound
      · split at hwith
        · next hbrace => exact ⟨behind, by rw [htext, hbrace]⟩
        · cases hwith

end Json

namespace Settings

/-! ## The text of a settings file -/

theorem ofText_of_parse {text : Text} {members : List (Text × Json)}
    (h : Json.parse text = .ok (.object members)) :
    ofText text = .ok (.table (Setting.ofFields members)) := by
  obtain ⟨⟨v, rest⟩, hvalue, hend⟩ := Outcome.bind_eq_ok_iff.mp h
  have hv : v = .object members := by
    dsimp only at hend
    split at hend
    · exact Except.ok.inj hend
    · cases hend
  subst hv
  obtain ⟨behind, hskip⟩ := Json.exists_of_value_object hvalue
  have hread : readTable text = .ok (.object members, rest) := by
    rw [readTable, hskip]
    show Json.value Json.depthLimit ('{' :: behind) = _
    rw [← hskip, Json.value_skipSpace, hvalue]
  have hwhole : Json.whole readTable text = .ok (.object members) :=
    Outcome.bind_eq_ok_iff.mpr ⟨_, hread, hend⟩
  rw [ofText, hwhole]
  rfl

/-- The members of the object in the settings file; none if there is no settings file. -/
inductive FileHolds (fs : FileTree) (config : Option Path) : List (Text × Json) → Prop where
  | absent (file : settingsFile? fs config = .ok none) : FileHolds fs config []
  | object {path : Path} {text : Text} {members : List (Text × Json)}
      (file : settingsFile? fs config = .ok (some path)) (content : fs.readText path = .ok text)
      (parsed : Json.parse text = .ok (.object members)) : FileHolds fs config members

/-! ## Layers over each other -/

/-- What the environment says about a field. -/
def inEnvironment? (environment : Variables) (name : String) : Option Setting :=
  environment.findSome? fun v =>
    if Environment.fieldOfVariable? v.1 = some name.toList then some (Environment.valueOf v.2)
    else none

/-- What the settings file says about a field. -/
def inFile? (members : List (Text × Json)) (name : String) : Option Setting :=
  (Json.field? name.toList members).map Setting.ofJson

/-- No two variables set one field. -/
def OncePerField (environment : Variables) : Prop :=
  (environment.filterMap fun v => Environment.fieldOfVariable? v.1).Nodup

instance (environment : Variables) : Decidable (OncePerField environment) :=
  inferInstanceAs (Decidable (List.Nodup _))

/-- All layers, a settings file with these fields among them. -/
def stack (file : List (Text × Setting)) (environment : Variables) (b : BuildArguments) :
    List (Text × Setting) :=
  Setting.overlayFields (Setting.overlayFields (Setting.overlayFields
    (Setting.overlayFields [] builtIn.fields) file) (ofVariables environment).fields)
    (ofArguments b).fields

theorem lookup_ofVariables {environment : Variables} (honce : OncePerField environment)
    (name : String) :
    Setting.lookup name.toList (ofVariables environment).fields = inEnvironment? environment name := by
  have hkeys : (environment.filterMap fun v => ofVariable v.1 v.2).map Prod.fst =
      environment.filterMap fun v => Environment.fieldOfVariable? v.1 := by
    rw [List.map_filterMap]
    simp [ofVariable, Function.comp_def]
  have hfound : ∀ vs : Variables, Setting.lookup name.toList
      (vs.filterMap fun v => ofVariable v.1 v.2) = inEnvironment? vs name := by
    intro vs
    induction vs with
    | nil => rfl
    | cons v vs ih =>
      cases hfield : Environment.fieldOfVariable? v.1 with
      | none => simpa [inEnvironment?, ofVariable, hfield] using ih
      | some field =>
        by_cases hname : field = name.toList
        · simp [inEnvironment?, ofVariable, hfield, Setting.lookup, hname]
        · simpa [inEnvironment?, ofVariable, hfield, Setting.lookup, hname] using ih
  show Setting.lookup name.toList (Setting.overlayFields [] _) = _
  rw [Setting.lookup_overlayFields (hkeys ▸ honce), hfound]
  exact Setting.onTop_none _

theorem sorted_stack (file : List (Text × Setting)) (environment : Variables) (b : BuildArguments) :
    Setting.Sorted (stack file environment b) :=
  Setting.sorted_overlayFields (Setting.sorted_overlayFields (Setting.sorted_overlayFields
    (Setting.sorted_overlayFields List.Pairwise.nil _) _) _) _

/-- **What stands under a key** behind all layers. -/
theorem lookup_stack {environment : Variables} (honce : OncePerField environment)
    (members : List (Text × Json)) (b : BuildArguments) (name : String) :
    Setting.lookup name.toList (stack (Setting.ofFields members) environment b) =
      Setting.onTop (Setting.lookup name.toList (argumentFields b))
        (Setting.onTop (inEnvironment? environment name)
          (Setting.onTop (inFile? members name) (Setting.lookup name.toList builtIn.fields))) := by
  have hnil : Setting.Sorted ([] : List (Text × Setting)) := List.Pairwise.nil
  have harguments : ((ofArguments b).fields.map Prod.fst).Nodup :=
    (Setting.sorted_overlayFields hnil _).nodup
  have hvariables : ((ofVariables environment).fields.map Prod.fst).Nodup :=
    (Setting.sorted_overlayFields hnil _).nodup
  have hbuiltIn : (builtIn.fields.map Prod.fst).Nodup := by
    rw [builtIn_fields]
    decide
  rw [stack, Setting.lookup_overlayFields harguments, Setting.lookup_overlayFields hvariables,
    Setting.lookup_overlayFields (Setting.sorted_ofFields members).nodup,
    Setting.lookup_overlayFields hbuiltIn, lookup_ofArguments, lookup_ofVariables honce,
    Setting.lookup_ofFields, Setting.lookup, Setting.onTop_none]
  rfl

/-! ## The value of a field -/

/-- The value of a field: what the command line gives, else what is read of a setting of the layers
below it, else the default. -/
def Chosen {α : Type} (d : Decoder α) (given : Option α) (below : Option Setting)
    (default value : α) : Prop :=
  match given with
  | some a => value = a
  | none => Reads d default value below

/-- Every field has its value. -/
def Layered (below : String → Option Setting) (b : BuildArguments) (s : Settings) : Prop :=
  EachField fun name d given get => Chosen d (given b) (below name) (get default) (get s)

/-- The file has no fields but those of the settings. -/
def OnlyKnown (members : List (Text × Json)) : Prop :=
  ∀ m ∈ members, IsKnown m.1

/-- What the higher of the environment and the file says about a field. -/
def highest (environment : Variables) (members : List (Text × Json)) (name : String) :
    Option Setting :=
  (inEnvironment? environment name).or (inFile? members name)

/-- The same, but two tables for the target are united. -/
def highestUnited (environment : Variables) (members : List (Text × Json)) (name : String) :
    Option Setting :=
  if name = "target" then Setting.onTop (inEnvironment? environment name) (inFile? members name)
  else highest environment members name

theorem onTop_or {upper middle lower : Option Setting}
    (h : ∀ setting, lower = some setting → setting.isTable = false) :
    Setting.onTop upper (Setting.onTop middle lower) = (Setting.onTop upper middle).or lower := by
  rw [Setting.onTop_eq_or (.inr h)]
  cases middle with
  | none => rw [Option.none_or, Setting.onTop_eq_or (.inr h), Setting.onTop_none]
  | some m => cases upper <;> rfl

/-- A field that is read through all layers has the value that they give it. -/
theorem reads_iff_chosen {α : Type} {d : Decoder α} {given : Option α} {default : α}
    {argument builtIn : Option Setting} (hgives : Gives d given argument)
    (hbuiltIn : Reads d default default builtIn)
    (hsingle : ∀ setting, builtIn = some setting → setting.isTable = false)
    (upper lower : Option Setting) (value : α) :
    Reads d default value (Setting.onTop argument (Setting.onTop upper (Setting.onTop lower builtIn))) ↔
      Chosen d given (Setting.onTop upper lower) default value := by
  rw [onTop_or hsingle]
  cases hgives with
  | @value a setting single reads =>
    have hargument : Setting.onTop (some setting) ((Setting.onTop upper lower).or builtIn) =
        some setting := by
      refine (Setting.onTop_eq_or (.inl fun s hs => ?_)).trans rfl
      exact Option.some.inj hs ▸ single
    rw [hargument]
    show d.ofSetting setting = .ok value ↔ value = a
    rw [reads, Except.ok.injEq]
    exact eq_comm
  | nothing =>
    show Reads d default value ((Setting.onTop upper lower).or builtIn) ↔
      Reads d default value (Setting.onTop upper lower)
    cases Setting.onTop upper lower with
    | some setting => exact Iff.rfl
    | none =>
      rw [Option.none_or]
      cases builtIn with
      | none => exact Iff.rfl
      | some setting =>
        have hdefault : d.ofSetting setting = .ok default := hbuiltIn
        show d.ofSetting setting = .ok value ↔ value = default
        rw [hdefault, Except.ok.injEq]
        exact eq_comm

/-- A field that takes no table has the value of the higher layer. -/
theorem reads_onTop_iff {α : Type} {d : Decoder α}
    (hsingle : ∀ fields a, d.ofSetting (.table fields) ≠ .ok a) (default value : α)
    (upper lower : Option Setting) :
    Reads d default value (Setting.onTop upper lower) ↔ Reads d default value (upper.or lower) := by
  cases upper with
  | none => exact Iff.rfl
  | some u =>
    cases lower with
    | none => exact Iff.rfl
    | some l =>
      cases u with
      | table upper =>
        cases l with
        | table lower => exact iff_of_false (hsingle _ _) (hsingle _ _)
        | _ => exact Iff.rfl
      | _ => exact Iff.rfl

theorem chosen_highestUnited_iff {α : Type} {name : String} {d : Decoder α}
    (hsingle : name = "target" ∨ ∀ fields a, d.ofSetting (.table fields) ≠ .ok a)
    (given : Option α) (environment : Variables) (members : List (Text × Json)) (default value : α) :
    Chosen d given (highestUnited environment members name) default value ↔
      Chosen d given (Setting.onTop (inEnvironment? environment name) (inFile? members name)) default
        value := by
  rw [highestUnited]
  split
  · exact Iff.rfl
  · next hname =>
    cases given with
    | some a => exact Iff.rfl
    | none => exact (reads_onTop_iff (hsingle.resolve_left hname) default value _ _).symm

/-- **A field behind all layers.** -/
theorem each_reads_iff {environment : Variables} (honce : OncePerField environment)
    (members : List (Text × Json)) (b : BuildArguments) (s : Settings) :
    EachField fun name d given get =>
      (Reads d (get default) (get s)
          (Setting.lookup name.toList (stack (Setting.ofFields members) environment b)) ↔
        Chosen d (given b) (highestUnited environment members name) (get default) (get s)) := by
  refine (gives.and (reads_builtIn.and single)).imp fun ⟨hgives, hbuiltIn, hsingle⟩ => ?_
  rw [lookup_stack honce, chosen_highestUnited_iff hsingle]
  exact reads_iff_chosen (hgives b) hbuiltIn (fun _ => isTable_builtIn) _ _ _

/-! ## Known fields -/

theorem isKnown_of_mem (names : List String) (hnames : names ⊆ shape.names) {key : Text}
    (h : key ∈ names.map String.toList) : IsKnown key := by
  obtain ⟨name, hname, rfl⟩ := List.mem_map.mp h
  exact ⟨name, hnames hname, rfl⟩

/-- A variable sets one of the fields that the environment may set. -/
theorem mem_fields_of_variable {name field : Text}
    (h : Environment.fieldOfVariable? name = some field) :
    field ∈ Environment.fields.map String.toList := by
  unfold Environment.fieldOfVariable? at h
  dsimp only at h
  split at h
  · unfold Environment.fieldOf? at h
    dsimp only at h
    split at h
    · next hany =>
      obtain rfl := Option.some.inj h
      obtain ⟨f, hf, heq⟩ := List.any_eq_true.mp hany
      exact List.mem_map.mpr ⟨f, hf, eq_of_beq heq⟩
    · cases h
  · cases h

theorem mem_fields_of_inEnvironment? {environment : Variables} {name : String} {setting : Setting}
    (h : inEnvironment? environment name = some setting) :
    name.toList ∈ Environment.fields.map String.toList := by
  obtain ⟨v, -, hv⟩ := List.exists_of_findSome?_eq_some h
  split at hv
  · next hfield => exact mem_fields_of_variable hfield
  · cases hv

theorem exists_of_onTop {upper lower : Option Setting} {setting : Setting}
    (h : Setting.onTop upper lower = some setting) :
    (∃ s, upper = some s) ∨ ∃ s, lower = some s := by
  cases upper with
  | some s => exact .inl ⟨s, rfl⟩
  | none => exact .inr ⟨setting, h⟩

/-- No layer but the file can have a field that is not known. -/
theorem isKnown_of_mem_stack {environment : Variables} (honce : OncePerField environment)
    {members : List (Text × Json)} (hmembers : OnlyKnown members) (b : BuildArguments)
    {f : Text × Setting} (hf : f ∈ stack (Setting.ofFields members) environment b) : IsKnown f.1 := by
  obtain ⟨name, hname⟩ : ∃ name : String, name.toList = f.1 := ⟨_, String.toList_ofList⟩
  have hlookup := Setting.lookup_of_mem (sorted_stack _ _ _).nodup hf
  rw [← hname] at hlookup ⊢
  rw [lookup_stack honce] at hlookup
  rcases exists_of_onTop hlookup with ⟨s, hs⟩ | ⟨s, hs⟩
  · have hkey := (keys_argumentFields b).subset (List.mem_map_of_mem (Setting.mem_of_lookup hs))
    exact isKnown_of_mem argumentNames (by decide) hkey
  rcases exists_of_onTop hs with ⟨s, hs⟩ | ⟨s, hs⟩
  · exact isKnown_of_mem Environment.fields (by decide) (mem_fields_of_inEnvironment? hs)
  rcases exists_of_onTop hs with ⟨s, hs⟩ | ⟨s, hs⟩
  · obtain ⟨v, hv, -⟩ := Option.map_eq_some_iff.mp hs
    exact hmembers _ (Json.mem_of_field? hv)
  · have hkey := List.mem_map_of_mem (f := Prod.fst) (Setting.mem_of_lookup hs)
    rw [builtIn_fields] at hkey
    exact isKnown_of_mem ["compiler", "debounceMs", "settleTickMs", "settleTimeoutMs", "watch"]
      (by decide) hkey

theorem exists_mem_stack {environment : Variables} (honce : OncePerField environment)
    {members : List (Text × Json)} (b : BuildArguments) {m : Text × Json} (hm : m ∈ members) :
    ∃ setting, (m.1, setting) ∈ stack (Setting.ofFields members) environment b := by
  obtain ⟨name, hname⟩ : ∃ name : String, name.toList = m.1 := ⟨_, String.toList_ofList⟩
  obtain ⟨v, hv⟩ := Json.exists_field?_of_mem hm
  have hfile : inFile? members name = some (Setting.ofJson v) := by
    rw [inFile?, hname, hv]
    rfl
  have hsome : ∃ setting, Setting.lookup name.toList
      (stack (Setting.ofFields members) environment b) = some setting := by
    rw [lookup_stack honce, hfile]
    cases Setting.lookup name.toList builtIn.fields <;> cases inEnvironment? environment name <;>
      cases Setting.lookup name.toList (argumentFields b) <;> exact ⟨_, rfl⟩
  obtain ⟨setting, hsetting⟩ := hsome
  exact ⟨setting, hname ▸ Setting.mem_of_lookup hsetting⟩

/-! ## Loading -/

theorem ofSetting_table_eq_ok_iff {fields : List (Text × Setting)} {s : Settings} :
    decoder.ofSetting (.table fields) = .ok s ↔
      Decoder.settingFields shape fields default = .ok s := by
  show (Decoder.settingFields shape fields default >>= fun s' =>
    (shape.finished s').mapError Setting.Fault.here) = .ok s ↔ _
  rw [Outcome.bind_eq_ok_iff]
  constructor
  · rintro ⟨s', hs', hfinished⟩
    obtain rfl := Except.ok.inj hfinished
    exact hs'
  · intro h
    exact ⟨s, h, rfl⟩

theorem united_layers_nil (environment : Variables) (b : BuildArguments) :
    united (layers [] environment b) = stack [] environment b := by
  have hnil : ∀ lower, Setting.overlayFields lower [] = lower := fun lower => by
    rw [Setting.overlayFields]
  rw [stack, hnil]
  rfl

/-- The settings that are loaded are those of all layers over each other. -/
theorem load_eq_ok_iff_stack {fs : FileTree} {b : BuildArguments} {members : List (Text × Json)}
    (hfile : FileHolds fs b.config members) (environment : Variables) (s : Settings) :
    load fs environment b = .ok s ↔
      Decoder.settingFields shape (stack (Setting.ofFields members) environment b) default = .ok s := by
  obtain ⟨file, hload, hunited⟩ : ∃ file : List Layer,
      load fs environment b = ofLayers (layers file environment b) ∧
        united (layers file environment b) = stack (Setting.ofFields members) environment b := by
    cases hfile with
    | absent hnone =>
      refine ⟨[], ?_, united_layers_nil environment b⟩
      rw [load, hnone]
      rfl
    | @object path text _ hsome hcontent hparsed =>
      have hofFile : ofFile fs path = .ok (.table (Setting.ofFields members)) := by
        rw [ofFile, hcontent]
        exact ofText_of_parse hparsed
      refine ⟨[layerOf (.file (shownPath fs path)) (.table (Setting.ofFields members))], ?_, rfl⟩
      rw [load, hsome, Outcome.bind_ok, fileLayer, hofFile]
      rfl
  rw [hload, ofLayers, hunited, Outcome.mapError_eq_ok_iff, ofSetting_table_eq_ok_iff]

theorem Chosen.unique {α : Type} {d : Decoder α} {given : Option α} {below : Option Setting}
    {default value value' : α} (h : Chosen d given below default value)
    (h' : Chosen d given below default value') : value = value' := by
  cases given with
  | some a => exact Eq.trans h (Eq.symm h')
  | none =>
    cases below with
    | none => exact Eq.trans h (Eq.symm h')
    | some setting =>
      have hvalue : d.ofSetting setting = .ok value := h
      have hvalue' : d.ofSetting setting = .ok value' := h'
      exact Except.ok.inj (hvalue.symm.trans hvalue')

section
variable {environment : Variables} {members : List (Text × Json)} {b : BuildArguments} {s : Settings}

theorem layered_of_settingFields (honce : OncePerField environment)
    (h : Decoder.settingFields shape (stack (Setting.ofFields members) environment b) default =
      .ok s) : Layered (highestUnited environment members) b s := by
  refine (owns.and (each_reads_iff honce members b s)).imp fun ⟨howns, hiff⟩ => hiff.mp ?_
  exact Decoder.reads_of_settingFields howns (sorted_stack _ _ _).nodup h

/-- Settings whose fields have their values are loaded. -/
theorem settingFields_of_layered (honce : OncePerField environment) (hmembers : OnlyKnown members)
    (h : Layered (highestUnited environment members) b s) :
    Decoder.settingFields shape (stack (Setting.ofFields members) environment b) default = .ok s := by
  have heach := owns.and ((each_reads_iff honce members b s).and h)
  have hfields : ∀ f ∈ stack (Setting.ofFields members) environment b,
      ∃ field, shape.field? f.1 = some field ∧ ∃ change, field.fill.ofSetting f.2 = .ok change := by
    intro f hf
    obtain ⟨name, hname, hkey⟩ := isKnown_of_mem_stack honce hmembers b hf
    obtain ⟨α, d, given, get, howns, hiff, hchosen⟩ := heach.exists_of_mem_names hname
    obtain ⟨set, hfield, -⟩ := howns.own
    have hreads := hiff.mpr hchosen
    rw [hkey, Setting.lookup_of_mem (sorted_stack _ _ _).nodup hf] at hreads
    have hvalue : d.ofSetting f.2 = .ok (get s) := hreads
    exact ⟨_, hkey ▸ hfield, set (get s), Outcome.map_eq_ok_iff.mpr ⟨get s, hvalue, rfl⟩⟩
  obtain ⟨s', hs'⟩ := Decoder.exists_settingFields hfields default
  -- Both settings have the values of the layers, so they are the same.
  have hsame := h.and (layered_of_settingFields honce hs')
  obtain rfl : s = s' := EachField.ext (hsame.imp fun ⟨hs, hs'⟩ => hs.unique hs')
  exact hs'

/-- Without a file and without variables, the command line and the defaults decide. -/
theorem load_of_absent {fs : FileTree} (hnone : settingsFile? fs b.config = .ok none)
    (h : Layered (fun _ => none) b s) : load fs [] b = .ok s := by
  have hsilent : highestUnited [] [] = fun _ => none := by
    funext name
    unfold highestUnited
    split <;> rfl
  rw [load_eq_ok_iff_stack (.absent hnone)]
  exact settingFields_of_layered (by simp [OncePerField]) nofun (hsilent ▸ h)

end

/-- **Where settings come from.** Settings are loaded exactly if the file has known fields only and
every field is what its highest layer says: the command line, else the environment, else the file,
else the default. The layers below do not matter, but where the environment and the file both write
the target as a table, the two tables are united. No variable sets the imports. -/
theorem load_eq_ok_iff {fs : FileTree} {environment : Variables} {b : BuildArguments}
    {members : List (Text × Json)} (hfile : FileHolds fs b.config members)
    (honce : OncePerField environment) (s : Settings) :
    (∀ v ∈ environment, Environment.fieldOfVariable? v.1 ≠ some "importAs".toList) ∧
      (load fs environment b = .ok s ↔
        OnlyKnown members ∧ Layered (highestUnited environment members) b s) := by
  refine ⟨fun v _ hv => absurd (mem_fields_of_variable hv) (by decide), ?_⟩
  rw [load_eq_ok_iff_stack hfile]
  constructor
  · intro h
    refine ⟨fun m hm => isKnown_iff.mpr ?_, layered_of_settingFields honce h⟩
    obtain ⟨setting, hmem⟩ := exists_mem_stack honce b hm
    exact Decoder.field?_of_settingFields rfl h _ hmem
  · rintro ⟨hmembers, h⟩
    exact settingFields_of_layered honce hmembers h

/-- A settings file with two fields. -/
def layersText : Text :=
  "\x7b\"outFile\":\"a\",\"watch\":true\x7d".toList

def layersMembers : List (Text × Json) :=
  [("outFile".toList, .ofString "a"), ("watch".toList, .bool true)]

def layersFiles : FileTree where
  entries := [([fileName], .file (Text.encode layersText))]
  current := []

/-- Variables for one of these and for another field. -/
def layersVariables : Variables :=
  [("AMDPACK_OUT_FILE".toList, "b".toList), ("AMDPACK_DEBOUNCE_MS".toList, "75".toList)]

/-- A command line for the field that both set, with imports. -/
def layersArguments : BuildArguments :=
  { BuildArguments.none with
    outFile := some "c".toList
    importAs := [⟨.asNamespace, "jQuery".toList, "jquery".toList⟩]
    importAsDefault := [⟨.byDefault, "React".toList, "react".toList⟩] }

def layersSettings : Settings :=
  { default with
    outFile := some "c".toList
    importAs := [⟨.asNamespace, "jQuery".toList, "jquery".toList⟩,
      ⟨.byDefault, "React".toList, "react".toList⟩]
    watch := true
    debounceMs := 75 }

theorem fileHolds_layersFiles : FileHolds layersFiles none layersMembers :=
  .object (show settingsFile? layersFiles none = .ok (some fileName) by cbv)
    (show layersFiles.readText fileName = .ok layersText by cbv)
    (show Json.parse layersText = .ok (.object layersMembers) by cbv)

theorem load_eq_ok_iff_layers :
    FileHolds layersFiles layersArguments.config layersMembers ∧ OncePerField layersVariables ∧
      load layersFiles layersVariables layersArguments = .ok layersSettings ∧
      OnlyKnown layersMembers ∧
      Layered (highestUnited layersVariables layersMembers) layersArguments layersSettings := by
  have hfile : FileHolds layersFiles layersArguments.config layersMembers := fileHolds_layersFiles
  have honce : OncePerField layersVariables := by decide +kernel
  have hload : load layersFiles layersVariables layersArguments = .ok layersSettings := by
    rw [load_eq_ok_iff_stack hfile]
    decide +kernel
  exact ⟨hfile, honce, hload, (load_eq_ok_iff hfile honce layersSettings).2.mp hload⟩

/-! ## Tables for a target -/

/-- Every field is what its highest layer says, tables included. -/
def LoadsHighest (fs : FileTree) (environment : Variables) (b : BuildArguments)
    (members : List (Text × Json)) : Prop :=
  FileHolds fs b.config members → OncePerField environment → ∀ s,
    (∀ v ∈ environment, Environment.fieldOfVariable? v.1 ≠ some "importAs".toList) ∧
      (load fs environment b = .ok s ↔ OnlyKnown members ∧ Layered (highest environment members) b s)

/-- A settings file that writes its target as a table. -/
def tableText : Text :=
  "\x7b\"target\":\x7b\"es5\":null\x7d\x7d".toList

def tableMembers : List (Text × Json) :=
  [("target".toList, .object [("es5".toList, .null)])]

def tableFiles : FileTree where
  entries := [([fileName], .file (Text.encode tableText))]
  current := []

/-- A variable that says that the target is an empty table. -/
def tableVariables : Variables :=
  [("AMDPACK_TARGET".toList, "\x7b\x7d".toList)]

theorem fileHolds_tableFiles : FileHolds tableFiles none tableMembers :=
  .object (show settingsFile? tableFiles none = .ok (some fileName) by cbv)
    (show tableFiles.readText fileName = .ok tableText by cbv)
    (show Json.parse tableText = .ok (.object tableMembers) by cbv)

/-- An empty table is no target, but it does not hide that of the file. -/
theorem not_loadsHighest : ¬ LoadsHighest tableFiles tableVariables .none tableMembers := by
  intro hloads
  have hfile : FileHolds tableFiles BuildArguments.none.config tableMembers := fileHolds_tableFiles
  have hload : load tableFiles tableVariables .none = .ok { default with target := some .es5 } := by
    rw [load_eq_ok_iff_stack hfile]
    decide +kernel
  have hlayered := ((hloads hfile (by decide +kernel) _).2.mp hload).2
  have htarget := hlayered.target
  have hhighest : highest tableVariables tableMembers "target" = some (.table []) := rfl
  rw [hhighest] at htarget
  cases htarget

end Settings

end AmdBundle
