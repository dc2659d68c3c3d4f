import AmdBundle.CommandLine.Basic
import AmdBundle.Error.Command
import AmdBundle.FileTree.Access
import AmdBundle.Settings.Basic
import AmdBundle.Settings.Environment

/-!
# Settings from all sides

A setting comes from the command line, from the environment, from the settings file, or it keeps its
default. Of two layers that set it the one named first hides the other; only tables are united.

* `Source` : where settings come from; `Layer` : the settings of one source;
* `settingsFile?` : which settings file there is;
* `united` : layers over each other; `Settings.load` : all layers as settings.
-/

set_option autoImplicit false

namespace AmdBundle.Settings

inductive Source where
  | builtIn
  | file (path : Path)
  | environment
  | commandLine
  deriving DecidableEq, Repr

/-- The settings of one source, sorted by name. -/
structure Layer where
  source : Source
  fields : List (Text × Setting)
  deriving Repr

/-- The names and values of the environment. -/
abbrev Variables := List (Text × Text)

namespace Source

/-- How a source is named behind a fault. -/
def message : Source → String
  | builtIn => ""
  | file path => " in " ++ String.ofList path ++ " JSON file"
  | environment => " in " ++ ticked (String.ofList Environment.beginning) ++
      " environment variable(s)"
  | commandLine => ""

def keyText (way : List Text) : Source → Text
  | environment => ['.'].intercalate (way.map Text.asciiUpper)
  | _ => ['.'].intercalate ("default".toList :: way)

end Source

/-! ## Layers -/

/-- Layers over each other, the lowest first. -/
def united (layers : List Layer) : List (Text × Setting) :=
  layers.foldl (fun fields layer => Setting.overlayFields fields layer.fields) []

/-- A setting as a layer; only a table has fields. -/
def layerOf (source : Source) : Setting → Layer
  | .table fields => ⟨source, fields⟩
  | _ => ⟨source, []⟩

def builtIn : Layer :=
  layerOf .builtIn (Setting.ofJson default.toJson)

def readTable : Json.Reader Json := fun text =>
  match Json.skipSpace text with
  | '{' :: rest => Json.value Json.depthLimit ('{' :: rest)
  | text => Decoder.refuse .map text

/-- The settings in the text of a settings file, or what is wrong with it. -/
def ofText (text : Text) : Except String Setting :=
  match Json.whole readTable text with
  | .error fault => .error (fault.message text)
  | .ok v => .ok (Setting.ofJson v)

/-- The settings of a settings file, or what is wrong with it. -/
def ofFile (fs : FileTree) (path : Path) : Except String Setting :=
  match fs.readText path with
  | .error e => .error e.message
  | .ok text => ofText text

/-- The field that a variable sets, and its value. -/
def ofVariable (name value : Text) : Option (Text × Setting) :=
  (Environment.fieldOfVariable? name).map fun field => (field, Environment.valueOf value)

/-- The layer of the environment; of two variables for one field the later counts. -/
def ofVariables (environment : Variables) : Layer :=
  ⟨.environment,
    Setting.overlayFields [] (environment.filterMap fun v => ofVariable v.1 v.2)⟩

def given {α : Type} (name : String) (setting : α → Setting) : Option α → List (Text × Setting)
  | some value => [(name.toList, setting value)]
  | none => []

/-- The settings of the imports of a command line: those of whole modules first. -/
def givenImports (b : BuildArguments) : List (Text × Setting) :=
  match b.importAs ++ b.importAsDefault with
  | [] => []
  | imports =>
    [("importAs".toList, .list (imports.map fun i => Setting.ofJson i.toJson))]

def ofArguments (b : BuildArguments) : Layer :=
  ⟨.commandLine, Setting.overlayFields []
    (given "input" .text b.input ++ given "outFile" .text b.outFile ++
      given "target" (fun t => .text t.name.toList) b.target ++
      given "exportAs" .text b.exportAs ++ givenImports b ++
      given "entryPoint" .text b.entryPoint ++ given "projectRoot" .text b.projectRoot ++
      given "watch" .flag (if b.watch then some true else none) ++
      given "compiler" .text b.compiler)⟩

/-! ## Loading -/

/-- The settings file that is read if no other is named. -/
def fileName : Path :=
  "amdpack.config.json".toList

/-- The settings file: the one that is named, which has to be there, else the one of the current
folder, if it is there. -/
def settingsFile? (fs : FileTree) : Option Path → Except SettingsError (Option Path)
  | some path => if fs.isFile path then .ok (some path) else .error (.notFound path)
  | none => .ok (if fs.isFile fileName then some fileName else none)

/-- The error of settings that do not fit. -/
def misfit (reason : String) : SettingsError :=
  .invalidValue "configuration" reason
    ("Check " ++ String.ofList fileName ++ " syntax and field types")

/-- The source of the setting at the end of a way: the highest layer that has one there. -/
def sourceOf (layers : List Layer) (way : List Text) : Source :=
  match layers.reverse.find? fun layer => Setting.holds way (.table layer.fields) with
  | some layer => layer.source
  | none => .builtIn

/-- The text of a fault of the settings of layers. -/
def faultText (layers : List Layer) (fault : Setting.Fault) : String :=
  let source := sourceOf layers fault.way
  Setting.mismatchText fault.mismatch ++ " for key " ++
    String.ofList (Text.shown (source.keyText fault.way)) ++ source.message

/-- The settings of layers, the lowest first. -/
def ofLayers (layers : List Layer) : Except SettingsError Settings :=
  (decoder.ofSetting (.table (united layers))).mapError fun fault =>
    misfit (faultText layers fault)

/-- How a file is named in messages: as seen from the current folder, unless that is no shorter. -/
def shownPath (fs : FileTree) (path : Path) : Path :=
  let whole := fs.absolute path
  let way := Path.way (Path.parts fs.currentPath) (Path.parts whole)
  if way.length ≤ (Path.parts whole).length then ['/'].intercalate way else whole

/-- The layer of the settings file, if there is one. -/
def fileLayer (fs : FileTree) : Option Path → Except SettingsError (List Layer)
  | none => .ok []
  | some path =>
    let source := Source.file (shownPath fs path)
    match ofFile fs path with
    | .ok setting => .ok [layerOf source setting]
    | .error reason => .error (misfit (reason ++ source.message))

def layers (file : List Layer) (environment : Variables) (b : BuildArguments) : List Layer :=
  builtIn :: file ++ [ofVariables environment, ofArguments b]

def load (fs : FileTree) (environment : Variables) (b : BuildArguments) :
    Except SettingsError Settings := do
  let path ← settingsFile? fs b.config
  let file ← fileLayer fs path
  ofLayers (layers file environment b)

end AmdBundle.Settings
