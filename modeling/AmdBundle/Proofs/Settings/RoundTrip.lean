import AmdBundle.Proofs.Decode.ReadBack
import AmdBundle.Proofs.Decode.Skip
import AmdBundle.Proofs.Decode.Yield
import AmdBundle.Proofs.Settings.Fields

/-!
# Written settings are read back

Settings and options are written as JSON in either layout, and read again from the text.

* `Decoder.RoundTrips` : a value is read back exactly if it is one that can be read at all, so what was
  written once is written the same from then on;
* `LoaderOptions.readsBack`, `BundleOptions.readsBack`, `Settings.readsBack` : written values are read back;
* `LoaderOptions.yields`, `BundleOptions.yields`, `Settings.yields` : what values can be read;
* `Settings.keys_members` : the fields that are written; `Settings.isKnown_of_parse` : those that are read;
* `settings_roundTrips` : all of it.
-/

set_option autoImplicit false

namespace AmdBundle
open Decoder (Leads)
open Json (Layout)

/-! ## Writing and reading -/

namespace Decoder
variable {α : Type}

/-- What the value that is read from a text is written as. -/
def rewrite (d : Decoder α) (toJson : α → Json) (layout : Layout) (text : Text) : Except Json.Fault Text :=
  (d.parse text).map fun a => layout.text (toJson a)

/-- The values with the property, and only those, are read back from what they are written as, and a text
that was written from another one stays as it is when it is written anew. -/
structure RoundTrips (d : Decoder α) (toJson : α → Json) (P : α → Prop) : Prop where
  parse_text_iff (layout : Layout) (a : α) : d.parse (layout.text (toJson a)) = .ok a ↔ P a
  rewrite_rewrite (layout : Layout) {text text' : Text} (h : d.rewrite toJson layout text = .ok text') :
    d.rewrite toJson layout text' = .ok text'

theorem roundTrips_of {d : Decoder α} {toJson : α → Json} {P : α → Prop} (hyields : d.Yields P)
    (hback : ∀ (layout : Layout) (a : α), P a → d.ReadsBack Json.depthLimit a (layout.text (toJson a))) :
    d.RoundTrips toJson P where
  parse_text_iff layout a := ⟨hyields.of_parse, fun ha => (hback layout a ha).parse⟩
  rewrite_rewrite layout {text text'} h := by
    obtain ⟨a, hparse, rfl⟩ := Outcome.map_eq_ok_iff.mp h
    have hagain := (hback layout a (hyields.of_parse hparse)).parse
    rw [rewrite, hagain]
    rfl

end Decoder

variable {layout : Layout} {n depth : Nat}

/-! ## Parts -/

theorem readsBack_string (wanted : Wanted) (value : Text) :
    (Decoder.textAs wanted).ReadsBack depth value (layout.print n (.string value)) := by
  rw [layout.print_string]
  exact Decoder.readsBack_text wanted value

theorem readsBack_ofNat {value : Nat} (h : value ≤ Json.wordLimit) :
    Decoder.count.ReadsBack depth value (layout.print n (.ofNat value)) := by
  rw [Json.ofNat, layout.print_number]
  exact Decoder.readsBack_count h

theorem readsBack_boolean (value : Bool) :
    Decoder.bool.ReadsBack depth value (layout.print n (.bool value)) := by
  rw [layout.print_bool]
  exact Decoder.readsBack_bool value

theorem Target.readsBack_quote (target : Target) :
    Target.decoder.ReadsBack depth target (Text.quote target.name.toList) := by
  have hfound : choices.find? (choices.name target).toList = some target := by cases target <;> rfl
  exact Decoder.readsBack_choice hfound

theorem Target.readsBack (target : Target) :
    Target.decoder.ReadsBack depth target (layout.print n (.ofString target.name)) := by
  rw [Json.ofString, layout.print_string]
  exact target.readsBack_quote

theorem readsBack_ofText? (value : Option Text) :
    (Decoder.optional .text).ReadsBack depth value (layout.print n (.ofText? value)) := by
  cases value with
  | none =>
    rw [Json.ofText?, layout.print_null]
    exact Decoder.readsBack_none _
  | some value =>
    refine Decoder.readsBack_some (readsBack_string .text value) ?_
    rw [Json.ofText?, layout.print_string]
    simp [Text.quote]

theorem ImportAs.readsBack (i : ImportAs) :
    ImportAs.decoder.ReadsBack (depth + 1) i (layout.print n i.toJson) := by
  obtain ⟨kind, outer, inner⟩ := i
  have hkind : (Decoder.choice ImportKind.choices).ReadsBack depth kind
      (layout.print (n + 2) (.ofString kind.name)) := by
    have hfound : ImportKind.choices.find? (ImportKind.choices.name kind).toList = some kind := by
      cases kind <;> rfl
    rw [Json.ofString, layout.print_string]
    exact Decoder.readsBack_choice hfound
  exact Decoder.readsBack_record (List.cons_ne_nil _ _) (.of_field rfl hkind
    (.of_field rfl (readsBack_string .text outer) (.of_field rfl (readsBack_string .text inner)
      (.nil _)))) (by simp) rfl

theorem readsBack_imports (imports : List ImportAs) : (Decoder.list ImportAs.decoder).ReadsBack (depth + 2)
    imports (layout.print n (.array (imports.map ImportAs.toJson))) := by
  refine Decoder.readsBack_array (List.forall₂_map_right_iff.mpr ?_)
  exact List.forall₂_same.mpr fun i _ => i.readsBack

/-! ## Options -/

/-- Exports that go where a name says, or nowhere. No name stands for a global variable that has the name
of `module.exports`. -/
def ExportAs.IsNamed (e : ExportAs) : Prop :=
  ∃ name, e = ofName? name

theorem ExportAs.IsNamed.ofName?_name? {e : ExportAs} (h : e.IsNamed) : ofName? e.name? = e := by
  obtain ⟨name, rfl⟩ := h
  cases name with
  | none => rfl
  | some name =>
    by_cases hname : name = commonJsName
    · rw [ofName?, if_pos hname, name?, ofName?, if_pos rfl]
    · rw [ofName?, if_neg hname, name?, ofName?, if_neg hname]

theorem yields_exportAs : ExportAs.decoder.Yields ExportAs.IsNamed :=
  Decoder.yields_map (Decoder.yields_any _) fun name _ => ⟨name, rfl⟩

theorem readsBack_exportAs {e : ExportAs} (h : e.IsNamed) :
    ExportAs.decoder.ReadsBack depth e (layout.print n (.ofText? e.name?)) := by
  have hread : ExportAs.decoder.ReadsBack depth (ExportAs.ofName? e.name?)
      (layout.print n (.ofText? e.name?)) := (readsBack_ofText? e.name?).map ExportAs.ofName?
  rwa [h.ofName?_name?] at hread

theorem LoaderOptions.readsBack {o : LoaderOptions} (h : o.exportAs.IsNamed) :
    LoaderOptions.decoder.ReadsBack (depth + 3) o (layout.print n o.toJson) :=
  Decoder.readsBack_record (List.cons_ne_nil _ _) (.of_field rfl o.target.readsBack
    (.of_field rfl (readsBack_ofText? o.entryPoint) (.of_field rfl (readsBack_exportAs h)
      (.of_field rfl (readsBack_imports o.importAs) (.nil _))))) (by simp) rfl

theorem BundleOptions.readsBack {o : BundleOptions} (h : o.exportAs.IsNamed) :
    BundleOptions.decoder.ReadsBack (depth + 3) o (layout.print n o.toJson) :=
  Decoder.readsBack_record (List.cons_ne_nil _ _) (.of_field rfl o.target.readsBack
    (.of_field rfl (readsBack_string .path o.projectRoot) (.of_field rfl (readsBack_ofText? o.entryPoint)
      (.of_field rfl (readsBack_exportAs h)
        (.of_field rfl (readsBack_imports o.importAs) (.nil _)))))) (by simp) rfl

theorem LoaderOptions.yields : LoaderOptions.decoder.Yields fun o => o.exportAs.IsNamed := by
  have hfields : ∀ field ∈ shape.fields, field.fill.Yields fun change =>
      ∀ o : LoaderOptions, o.exportAs.IsNamed → (change o).exportAs.IsNamed := by
    simp only [shape, List.forall_mem_cons]
    exact ⟨Decoder.yields_other fun _ _ ho => ho,
      Decoder.yields_other fun _ _ ho => ho,
      Decoder.yields_field yields_exportAs fun _ _ he _ => he,
      Decoder.yields_other fun _ _ ho => ho, List.forall_mem_nil _⟩
  exact Decoder.yields_record hfields ⟨none, rfl⟩ fun o o' ho heq => Except.ok.inj heq ▸ ho

theorem BundleOptions.yields : BundleOptions.decoder.Yields fun o => o.exportAs.IsNamed := by
  have hfields : ∀ field ∈ shape.fields, field.fill.Yields fun change =>
      ∀ o : BundleOptions, o.exportAs.IsNamed → (change o).exportAs.IsNamed := by
    simp only [shape, List.forall_mem_cons]
    exact ⟨Decoder.yields_other fun _ _ ho => ho,
      Decoder.yields_other fun _ _ ho => ho,
      Decoder.yields_other fun _ _ ho => ho,
      Decoder.yields_field yields_exportAs fun _ _ he _ => he,
      Decoder.yields_other fun _ _ ho => ho, List.forall_mem_nil _⟩
  exact Decoder.yields_record hfields ⟨none, rfl⟩ fun o o' ho heq => Except.ok.inj heq ▸ ho

/-! ## Settings -/

namespace Settings

/-- The counts fit into 64 bits. -/
structure Fits (s : Settings) : Prop where
  debounceMs_le : s.debounceMs ≤ Json.wordLimit
  settleTickMs_le : s.settleTickMs ≤ Json.wordLimit
  settleTimeoutMs_le : s.settleTimeoutMs ≤ Json.wordLimit

/-- The member for a text that is set, or for what is spelled as one. -/
theorem leads_textMember {β : Type} {name : String} {d : Decoder β} {spelling : β → Text}
    {set : Option β → Settings → Settings} (value : Option β) (s : Settings)
    (hfield : shape.field? name.toList = some (.of name (.optional d) set))
    (h : ∀ b, d.ReadsBack depth b (Text.quote (spelling b))) (hunset : set none s = s) :
    Leads layout shape n depth s (textMember name (value.map spelling)) (set value s) := by
  cases value with
  | none =>
    rw [hunset]
    exact .nil s
  | some b =>
    have hread : (Decoder.optional d).ReadsBack depth (some b)
        (layout.print n (.string (spelling b))) := by
      rw [layout.print_string]
      exact Decoder.readsBack_some (h b) (by simp [Text.quote])
    exact .of_field hfield hread (.nil _)

theorem leads_text {wanted : Wanted} {set : Option Text → Settings → Settings} (name : String)
    (value : Option Text) (s : Settings)
    (hfield : shape.field? name.toList = some (.of name (.optional (.textAs wanted)) set))
    (hunset : set none s = s) :
    Leads layout shape n depth s (textMember name value) (set value s) := by
  have hread (text : Text) : (Decoder.textAs wanted).ReadsBack depth text (Text.quote text) :=
    Decoder.readsBack_text wanted text
  have hleads : Leads layout shape n depth s (textMember name (value.map id)) (set value s) :=
    leads_textMember value s hfield hread hunset
  rwa [Option.map_id_fun, id_eq] at hleads

theorem leads_importMember (imports : List ImportAs) (s : Settings) (hunset : s.importAs = []) :
    Leads layout shape n (depth + 2) s (importMember imports) { s with importAs := imports } := by
  cases imports with
  | nil =>
    have hsame : { s with importAs := [] } = s := by rw [← hunset]
    rw [hsame]
    exact .nil s
  | cons i more => exact .of_field rfl (readsBack_imports (i :: more)) (.nil _)

/-- The members that settings are written as. -/
def members (s : Settings) : List (Text × Json) :=
  textMember "input" s.input ++ textMember "outFile" s.outFile ++
    textMember "target" (s.target.map fun t => t.name.toList) ++
    textMember "exportAs" s.exportAs ++ importMember s.importAs ++
    textMember "entryPoint" s.entryPoint ++ textMember "projectRoot" s.projectRoot ++
    [("watch".toList, .bool s.watch), ("compiler".toList, .string s.compiler),
      ("debounceMs".toList, .ofNat s.debounceMs), ("settleTickMs".toList, .ofNat s.settleTickMs),
      ("settleTimeoutMs".toList, .ofNat s.settleTimeoutMs)]

/-- The defaults with the fields that are written only if they are set. -/
def settled (input outFile : Option Path) (target : Option Target) (exportAs : Option Text)
    (importAs : List ImportAs) (entryPoint : Option Text) (projectRoot : Option Path) : Settings :=
  { default with input, outFile, target, exportAs, importAs, entryPoint, projectRoot }

theorem leads_members {s : Settings} (h : s.Fits) :
    Leads layout shape n (depth + 2) default s.members s := by
  have hothers : Leads layout shape n (depth + 2)
      (settled s.input s.outFile s.target s.exportAs s.importAs s.entryPoint s.projectRoot)
      [("watch".toList, .bool s.watch), ("compiler".toList, .string s.compiler),
        ("debounceMs".toList, .ofNat s.debounceMs), ("settleTickMs".toList, .ofNat s.settleTickMs),
        ("settleTimeoutMs".toList, .ofNat s.settleTimeoutMs)] s :=
    .of_field rfl (readsBack_boolean s.watch) (.of_field rfl (readsBack_string .text s.compiler)
      (.of_field rfl (readsBack_ofNat h.debounceMs_le) (.of_field rfl (readsBack_ofNat h.settleTickMs_le)
        (.of_field rfl (readsBack_ofNat h.settleTimeoutMs_le) (.nil _)))))
  unfold members
  refine Leads.append (Leads.append (Leads.append (Leads.append (Leads.append (Leads.append (Leads.append
    (leads_text "input" s.input (settled none none none none [] none none) rfl rfl)
    (leads_text "outFile" s.outFile (settled s.input none none none [] none none) rfl rfl))
    (leads_textMember s.target (settled s.input s.outFile none none [] none none) rfl
      Target.readsBack_quote rfl))
    (leads_text "exportAs" s.exportAs (settled s.input s.outFile s.target none [] none none) rfl rfl))
    (leads_importMember s.importAs
      (settled s.input s.outFile s.target s.exportAs [] none none) rfl))
    (leads_text "entryPoint" s.entryPoint
      (settled s.input s.outFile s.target s.exportAs s.importAs none none) rfl rfl))
    (leads_text "projectRoot" s.projectRoot
      (settled s.input s.outFile s.target s.exportAs s.importAs s.entryPoint none) rfl rfl)) hothers

/-- Is the field of that name one that is written only if it is set, and not set? -/
def isUnset (s : Settings) : String → Bool
  | "input" => s.input.isNone
  | "outFile" => s.outFile.isNone
  | "target" => s.target.isNone
  | "exportAs" => s.exportAs.isNone
  | "importAs" => s.importAs.isEmpty
  | "entryPoint" => s.entryPoint.isNone
  | "projectRoot" => s.projectRoot.isNone
  | _ => false

/-- The names of the fields that are written. -/
def written (s : Settings) : List String :=
  shape.names.filter fun name => !s.isUnset name

theorem keys_textMember {s : Settings} {name : String} {value : Option Text}
    (h : s.isUnset name = value.isNone) :
    (textMember name value).map Prod.fst =
      ([name].filter fun name => !s.isUnset name).map String.toList := by
  cases value with
  | none => simp [h, textMember]
  | some text => simp [h, textMember]

theorem keys_importMember {s : Settings} : (importMember s.importAs).map Prod.fst =
    (["importAs"].filter fun name => !s.isUnset name).map String.toList := by
  have hunset : s.isUnset "importAs" = s.importAs.isEmpty := rfl
  cases himports : s.importAs with
  | nil => simp [hunset, himports, importMember]
  | cons i more => simp [hunset, himports, importMember]

/-- **The fields are written in their order**, without those that are not set. -/
theorem keys_members (s : Settings) : s.members.map Prod.fst = s.written.map String.toList := by
  have hnames : shape.names = ["input"] ++ ["outFile"] ++ ["target"] ++ ["exportAs"] ++ ["importAs"] ++
      ["entryPoint"] ++ ["projectRoot"] ++
      ["watch", "compiler", "debounceMs", "settleTickMs", "settleTimeoutMs"] := rfl
  have hinput := keys_textMember (show s.isUnset "input" = s.input.isNone from rfl)
  have houtFile := keys_textMember (show s.isUnset "outFile" = s.outFile.isNone from rfl)
  have htarget := keys_textMember (show s.isUnset "target" = (s.target.map fun t => t.name.toList).isNone
    from Option.isNone_map.symm)
  have hexportAs := keys_textMember (show s.isUnset "exportAs" = s.exportAs.isNone from rfl)
  have hentryPoint := keys_textMember (show s.isUnset "entryPoint" = s.entryPoint.isNone from rfl)
  have hprojectRoot := keys_textMember (show s.isUnset "projectRoot" = s.projectRoot.isNone from rfl)
  simp only [written, hnames, members, List.filter_append, List.map_append, hinput, houtFile, htarget,
    hexportAs, keys_importMember, hentryPoint, hprojectRoot]
  rfl

theorem readsBack {s : Settings} (h : s.Fits) :
    decoder.ReadsBack (depth + 3) s (layout.print n s.toJson) := by
  have hne : s.members ≠ [] := List.append_ne_nil_of_right_ne_nil _ (List.cons_ne_nil _ _)
  have hnames : (shape.names.map String.toList).Nodup := by decide
  have hdistinct : (s.members.map Prod.fst).Nodup := by
    rw [keys_members]
    exact (List.filter_sublist.map _).nodup hnames
  exact Decoder.readsBack_record hne (leads_members h) hdistinct rfl

theorem yields : decoder.Yields Fits := by
  have hfields : ∀ field ∈ shape.fields, field.fill.Yields fun change =>
      ∀ s : Settings, s.Fits → (change s).Fits := by
    simp only [shape, List.forall_mem_cons]
    exact ⟨Decoder.yields_other fun _ _ hs => ⟨hs.1, hs.2, hs.3⟩,
      Decoder.yields_other fun _ _ hs => ⟨hs.1, hs.2, hs.3⟩,
      Decoder.yields_other fun _ _ hs => ⟨hs.1, hs.2, hs.3⟩,
      Decoder.yields_other fun _ _ hs => ⟨hs.1, hs.2, hs.3⟩,
      Decoder.yields_other fun _ _ hs => ⟨hs.1, hs.2, hs.3⟩,
      Decoder.yields_other fun _ _ hs => ⟨hs.1, hs.2, hs.3⟩,
      Decoder.yields_other fun _ _ hs => ⟨hs.1, hs.2, hs.3⟩,
      Decoder.yields_other fun _ _ hs => ⟨hs.1, hs.2, hs.3⟩,
      Decoder.yields_other fun _ _ hs => ⟨hs.1, hs.2, hs.3⟩,
      Decoder.yields_field Decoder.yields_count fun _ _ hn hs => ⟨hn, hs.2, hs.3⟩,
      Decoder.yields_field Decoder.yields_count fun _ _ hn hs => ⟨hs.1, hn, hs.3⟩,
      Decoder.yields_field Decoder.yields_count fun _ _ hn hs => ⟨hs.1, hs.2, hn⟩, List.forall_mem_nil _⟩
  have hstart : default.Fits := ⟨by decide, by decide, by decide⟩
  exact Decoder.yields_record hfields hstart fun s s' hs heq => Except.ok.inj heq ▸ hs

/-! ## Fields that are read -/

theorem isSkipped_import : ImportAs.decoder.IsSkipped := by
  refine Decoder.isSkipped_record ?_
  simp only [ImportAs.shape, List.forall_mem_cons]
  exact ⟨Decoder.isSkipped_field (Decoder.isSkipped_choice _),
    Decoder.isSkipped_field (Decoder.isSkipped_textAs _),
    Decoder.isSkipped_field (Decoder.isSkipped_textAs _), List.forall_mem_nil _⟩

theorem isSkipped_fields : ∀ field ∈ shape.fields, field.fill.IsSkipped := by
  have htext (wanted : Wanted) : (Decoder.optional (.textAs wanted)).IsSkipped :=
    Decoder.isSkipped_optional (Decoder.isSkipped_textAs wanted)
  have htarget : (Decoder.optional Target.decoder).IsSkipped :=
    Decoder.isSkipped_optional (Decoder.isSkipped_choice _)
  simp only [shape, List.forall_mem_cons]
  exact ⟨Decoder.isSkipped_field (htext _), Decoder.isSkipped_field (htext _),
    Decoder.isSkipped_field htarget, Decoder.isSkipped_field (htext _),
    Decoder.isSkipped_field (Decoder.isSkipped_list isSkipped_import),
    Decoder.isSkipped_field (htext _), Decoder.isSkipped_field (htext _),
    Decoder.isSkipped_field Decoder.isSkipped_bool, Decoder.isSkipped_field (Decoder.isSkipped_textAs _),
    Decoder.isSkipped_field Decoder.isSkipped_count, Decoder.isSkipped_field Decoder.isSkipped_count,
    Decoder.isSkipped_field Decoder.isSkipped_count, List.forall_mem_nil _⟩

/-- **Settings are read only from objects whose keys all name fields.** -/
theorem isKnown_of_parse {text front : Text} {s : Settings} (hbrace : Json.skipSpace text = '{' :: front)
    (h : decoder.parse text = .ok s) :
    ∃ keys, Json.objectKeys text = .ok keys ∧ ∀ key ∈ keys, IsKnown key := by
  obtain ⟨keys, hkeys, htakes⟩ := Decoder.objectKeys_of_parse isSkipped_fields hbrace h
  exact ⟨keys, hkeys, fun key hkey => isKnown_iff.mpr (htakes key hkey rfl)⟩

end Settings

/-! ## All records -/

/-- **Settings and options are read back from what they are written as**: settings whose counts fit into 64
bits, and options whose exports go where a name says. The settings are written without the fields that are
not set, and not read from an object that has a key of no field. -/
theorem settings_roundTrips :
    (Settings.decoder.RoundTrips Settings.toJson Settings.Fits ∧
      BundleOptions.decoder.RoundTrips BundleOptions.toJson (fun o => o.exportAs.IsNamed) ∧
      LoaderOptions.decoder.RoundTrips LoaderOptions.toJson (fun o => o.exportAs.IsNamed)) ∧
    (∀ s : Settings, ∃ members, s.toJson = .object members ∧
      members.map Prod.fst = s.written.map String.toList) ∧
    ∀ (text front : Text) (s : Settings), Json.skipSpace text = '{' :: front →
      Settings.decoder.parse text = .ok s →
      ∃ keys, Json.objectKeys text = .ok keys ∧ ∀ key ∈ keys, Settings.IsKnown key := by
  have hsettings : Settings.decoder.RoundTrips Settings.toJson Settings.Fits :=
    Decoder.roundTrips_of Settings.yields fun _ _ h => Settings.readsBack h
  have hbundle : BundleOptions.decoder.RoundTrips BundleOptions.toJson fun o => o.exportAs.IsNamed :=
    Decoder.roundTrips_of BundleOptions.yields fun _ _ h => BundleOptions.readsBack h
  have hloader : LoaderOptions.decoder.RoundTrips LoaderOptions.toJson fun o => o.exportAs.IsNamed :=
    Decoder.roundTrips_of LoaderOptions.yields fun _ _ h => LoaderOptions.readsBack h
  exact ⟨⟨hsettings, hbundle, hloader⟩, fun s => ⟨s.members, rfl, s.keys_members⟩,
    fun _ _ _ hbrace hparse => Settings.isKnown_of_parse hbrace hparse⟩

/-- Settings of which two are set, and the greatest count. -/
def Settings.ofApp : Settings :=
  { default with
    input := some "app.ts".toList
    exportAs := some "commonjs".toList
    settleTimeoutMs := Json.wordLimit }

def Settings.appText : Text :=
  ("\x7b\"input\":\"app.ts\",\"exportAs\":\"commonjs\",\"watch\":false,\"compiler\":\"tsc\"," ++
    "\"debounceMs\":50,\"settleTickMs\":100,\"settleTimeoutMs\":18446744073709551615\x7d").toList

theorem settings_roundTrips_app : Layout.compact.text Settings.ofApp.toJson = Settings.appText ∧
    Settings.decoder.parse Settings.appText = .ok Settings.ofApp ∧
    ∃ keys, Json.objectKeys Settings.appText = .ok keys ∧ ∀ key ∈ keys, Settings.IsKnown key := by
  have htext : Layout.compact.text Settings.ofApp.toJson = Settings.appText := by decide +kernel
  have hfits : Settings.ofApp.Fits := ⟨by decide, by decide, by decide⟩
  have hparse := (settings_roundTrips.1.1.parse_text_iff Layout.compact Settings.ofApp).mpr hfits
  rw [htext] at hparse
  have hbrace : Json.skipSpace Settings.appText = '{' :: Settings.appText.tail := by decide +kernel
  exact ⟨htext, hparse, settings_roundTrips.2.2 Settings.appText _ Settings.ofApp hbrace hparse⟩

end AmdBundle
