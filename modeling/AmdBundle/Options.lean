import AmdBundle.Decode.Record
import AmdBundle.Target

/-!
# Options of a bundle

* `ExportAs` : where the exports of the entry module go; `ImportAs` : a name of the host that the
  bundle sees as a module;
* `BundleOptions` : all options; `LoaderOptions` : those of the loader alone;
* `toJson` and `decoder` of each : how it is written and read.
-/

set_option autoImplicit false

namespace AmdBundle

/-! ## Exports -/

/-- Where the exports of the entry module go. -/
inductive ExportAs where
  | nowhere
  /-- To `module.exports`. -/
  | commonJs
  | global (name : Text)
  deriving DecidableEq, Repr

namespace ExportAs

/-- The name that stands for `module.exports`. -/
def commonJsName : Text :=
  "commonjs".toList

/-- Where the exports go under an optional name. -/
def ofName? : Option Text → ExportAs
  | none => nowhere
  | some name => if name = commonJsName then commonJs else global name

/-- The optional name under which exports go there. -/
def name? : ExportAs → Option Text
  | nowhere => none
  | commonJs => some commonJsName
  | global name => some name

/-- How exports are read: an optional name. -/
def decoder : Decoder ExportAs :=
  (Decoder.optional Decoder.text).map ofName?

end ExportAs

/-! ## Imports -/

/-- What a name of the host is to the modules of the bundle. -/
inductive ImportKind where
  | byDefault
  | asNamespace
  deriving DecidableEq, Repr

/-- How a kind of import is written. -/
def ImportKind.name : ImportKind → String
  | byDefault => "default"
  | asNamespace => "namespace"

def ImportKind.choices : Choices ImportKind :=
  ⟨"ImportKind", [.byDefault, .asNamespace], ImportKind.name⟩

/-- A name of the host that the bundle sees as a module. -/
structure ImportAs where
  kind : ImportKind
  outer : Text
  inner : Text
  deriving DecidableEq, Repr

namespace ImportAs

/-- An import of which some fields are known. -/
structure Draft where
  kind : Option ImportKind
  outer : Option Text
  inner : Option Text

/-- The import of a draft, or the first field that is not known. -/
def Draft.finish : Draft → Except String ImportAs
  | ⟨some kind, some outer, some inner⟩ => .ok ⟨kind, outer, inner⟩
  | ⟨none, _, _⟩ => .error "type"
  | ⟨_, none, _⟩ => .error "outer"
  | ⟨_, _, none⟩ => .error "inner"

def shape : Shape Draft ImportAs where
  title := "ImportAs"
  fields :=
    [.of "type" (.choice ImportKind.choices) fun kind d => { d with kind := some kind },
      .of "outer" .text fun outer d => { d with outer := some outer },
      .of "inner" .text fun inner d => { d with inner := some inner }]
  start := ⟨none, none, none⟩
  isClosed := false
  isFull := true
  finish := Draft.finish

def decoder : Decoder ImportAs :=
  .record shape

def toJson (i : ImportAs) : Json :=
  .object
    [("type".toList, .ofString i.kind.name), ("outer".toList, .string i.outer),
      ("inner".toList, .string i.inner)]

end ImportAs

/-! ## Options -/

def Json.ofText? : Option Text → Json
  | some value => .string value
  | none => .null

structure LoaderOptions where
  target : Target
  /-- The module to start with, the last one if there is none. -/
  entryPoint : Option Text
  exportAs : ExportAs
  /-- The names of the host that are modules. -/
  importAs : List ImportAs
  deriving DecidableEq, Repr

namespace LoaderOptions

def default : LoaderOptions :=
  ⟨.es3, none, .nowhere, []⟩

def shape : Shape LoaderOptions LoaderOptions where
  title := "LoaderOptions"
  fields :=
    [.of "esTarget" Target.decoder fun target o => { o with target },
      .of "entryPoint" (.optional .text) fun entryPoint o => { o with entryPoint },
      .of "exportAs" ExportAs.decoder fun exportAs o => { o with exportAs },
      .of "importAs" (.list ImportAs.decoder) fun importAs o => { o with importAs }]
  start := default
  isClosed := false
  isFull := false
  finish := .ok

def decoder : Decoder LoaderOptions :=
  .record shape

def toJson (o : LoaderOptions) : Json :=
  .object
    [("esTarget".toList, .ofString o.target.name), ("entryPoint".toList, .ofText? o.entryPoint),
      ("exportAs".toList, .ofText? o.exportAs.name?),
      ("importAs".toList, .array (o.importAs.map ImportAs.toJson))]

end LoaderOptions

structure BundleOptions where
  target : Target
  /-- The folder from which the files of resources are seen. -/
  projectRoot : Path
  /-- The module to start with, the last one if there is none. -/
  entryPoint : Option Text
  exportAs : ExportAs
  /-- The names of the host that are modules. -/
  importAs : List ImportAs
  deriving DecidableEq, Repr

namespace BundleOptions

/-- The options of a project that nobody set. -/
def ofRoot (projectRoot : Path) : BundleOptions :=
  ⟨.es3, projectRoot, none, .nowhere, []⟩

def default : BundleOptions :=
  ofRoot Path.here

/-- The options with one more import, behind the others. -/
def addImport (o : BundleOptions) (i : ImportAs) : BundleOptions :=
  { o with importAs := o.importAs ++ [i] }

def loader (o : BundleOptions) : LoaderOptions :=
  ⟨o.target, o.entryPoint, o.exportAs, o.importAs⟩

def shape : Shape BundleOptions BundleOptions where
  title := "BundleOptions"
  fields :=
    [.of "esTarget" Target.decoder fun target o => { o with target },
      .of "projectRoot" .path fun projectRoot o => { o with projectRoot },
      .of "entryPoint" (.optional .text) fun entryPoint o => { o with entryPoint },
      .of "exportAs" ExportAs.decoder fun exportAs o => { o with exportAs },
      .of "importAs" (.list ImportAs.decoder) fun importAs o => { o with importAs }]
  start := default
  isClosed := false
  isFull := false
  finish := .ok

def decoder : Decoder BundleOptions :=
  .record shape

def toJson (o : BundleOptions) : Json :=
  .object
    [("esTarget".toList, .ofString o.target.name), ("projectRoot".toList, .string o.projectRoot),
      ("entryPoint".toList, .ofText? o.entryPoint),
      ("exportAs".toList, .ofText? o.exportAs.name?),
      ("importAs".toList, .array (o.importAs.map ImportAs.toJson))]

end BundleOptions

end AmdBundle
