import AmdBundle.Options

/-!
# Settings of a build

* `Settings` : all settings; `Settings.default` : those that nobody set;
* `Settings.shape`, `Settings.decoder` : how they are read; `Settings.toJson` : how they are written;
* `Settings.bundleOptions` : the options of the bundle that they ask for.
-/

set_option autoImplicit false

namespace AmdBundle

structure Settings where
  input : Option Path
  outFile : Option Path
  /-- What the compiler and the loader may use. -/
  target : Option Target
  /-- Where the exports of the entry module go. -/
  exportAs : Option Text
  /-- The names of the host that are modules. -/
  importAs : List ImportAs
  entryPoint : Option Text
  /-- The folder from which the files of resources are seen. -/
  projectRoot : Option Path
  /-- Does the compiler go on and compile every change? -/
  watch : Bool
  compiler : Text
  /-- How many milliseconds the output has to be quiet before it is read. -/
  debounceMs : Nat
  /-- How many milliseconds pass between two looks at output that is late. -/
  settleTickMs : Nat
  settleTimeoutMs : Nat
  deriving DecidableEq, Repr

namespace Settings

def defaultCompiler : Text :=
  "tsc".toList

def default : Settings where
  input := none
  outFile := none
  target := none
  exportAs := none
  importAs := []
  entryPoint := none
  projectRoot := none
  watch := false
  compiler := defaultCompiler
  debounceMs := 50
  settleTickMs := 100
  settleTimeoutMs := 1000

/-! ## Reading and writing -/

def shape : Shape Settings Settings where
  title := "AmdpackConfig"
  fields :=
    [.of "input" (.optional .path) fun input s => { s with input },
      .of "outFile" (.optional .path) fun outFile s => { s with outFile },
      .of "target" (.optional Target.decoder) fun target s => { s with target },
      .of "exportAs" (.optional .text) fun exportAs s => { s with exportAs },
      .of "importAs" (.list ImportAs.decoder) fun importAs s => { s with importAs },
      .of "entryPoint" (.optional .text) fun entryPoint s => { s with entryPoint },
      .of "projectRoot" (.optional .path) fun projectRoot s => { s with projectRoot },
      .of "watch" .bool fun watch s => { s with watch },
      .of "compiler" .text fun compiler s => { s with compiler },
      .of "debounceMs" .count fun debounceMs s => { s with debounceMs },
      .of "settleTickMs" .count fun settleTickMs s => { s with settleTickMs },
      .of "settleTimeoutMs" .count fun settleTimeoutMs s => { s with settleTimeoutMs }]
  start := default
  isClosed := true
  isFull := false
  finish := .ok

def decoder : Decoder Settings :=
  .record shape

/-- A member for a text that is set. -/
def textMember (key : String) : Option Text → List (Text × Json)
  | some value => [(key.toList, .string value)]
  | none => []

/-- A member for imports, if there are any. -/
def importMember : List ImportAs → List (Text × Json)
  | [] => []
  | imports => [("importAs".toList, .array (imports.map ImportAs.toJson))]

/-- How the settings are written: without what is not set. -/
def toJson (s : Settings) : Json :=
  .object
    (textMember "input" s.input ++ textMember "outFile" s.outFile ++
      textMember "target" (s.target.map fun t => t.name.toList) ++
      textMember "exportAs" s.exportAs ++ importMember s.importAs ++
      textMember "entryPoint" s.entryPoint ++ textMember "projectRoot" s.projectRoot ++
      [("watch".toList, .bool s.watch), ("compiler".toList, .string s.compiler),
        ("debounceMs".toList, .ofNat s.debounceMs), ("settleTickMs".toList, .ofNat s.settleTickMs),
        ("settleTimeoutMs".toList, .ofNat s.settleTimeoutMs)])

/-! ## What they ask for -/

/-- The options of the bundle, for a target and a project folder. -/
def bundleOptions (s : Settings) (target : Target) (projectRoot : Path) : BundleOptions :=
  ⟨target, projectRoot, s.entryPoint, ExportAs.ofName? s.exportAs, s.importAs⟩

end Settings

end AmdBundle
