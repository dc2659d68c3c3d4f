import AmdBundle.Document
import AmdBundle.Json.Printer
import AmdBundle.Json.Reader
import AmdBundle.Resource.Folder
import AmdBundle.Resource.Stylesheet

/-!
# Files as modules

Every resource of a bundle becomes a module of its own, a fragment, in front of the bundle. A file
that cannot be read never stops the bundle: its module gets a fixed value instead.

* `value` : what a resource evaluates to; `fragment` : its module;
* `inject` : a bundle with a fragment for each of its resources.
-/

set_option autoImplicit false

namespace AmdBundle.Fragment

/-! ## Values -/

def emptyString : Text :=
  ['"', '"']

/-- A value over several lines, the later ones inside a module. -/
def indentedJson (v : Json) : Text :=
  Text.replaceChar '\n' "\n    ".toList (Json.pretty v)

/-- An object that says what went wrong. -/
def failure (reason : String) : Json :=
  .object [("error".toList, .ofString reason)]

/-- The text of a file as a string. -/
def textValue (fs : FileTree) (path : Path) : Text :=
  match fs.readText path with
  | .ok text => Text.scriptQuote text
  | .error _ => emptyString

def jsonValue (fs : FileTree) (path : Path) : Text :=
  match fs.readText path with
  | .error _ => indentedJson (failure "unable to load resource")
  | .ok text =>
    match Json.parse text with
    | .ok v => indentedJson v
    | .error fault => Json.compact (failure (fault.message text))

/-- The bytes of a file in base64, as a string. -/
def base64Value (fs : FileTree) (path : Path) : Text :=
  match fs.readBytes path with
  | .ok bytes => Text.scriptQuote (Base64.encode bytes)
  | .error _ => emptyString

def byteArray (bytes : Bytes) : Text :=
  "new Uint8Array([".toList ++
    [','].intercalate (bytes.map fun b => Text.ofNat b.toNat) ++ "])".toList

/-- The bytes of a file as an array of bytes. -/
def bufferValue (fs : FileTree) (path : Path) : Text :=
  match fs.readBytes path with
  | .ok bytes => byteArray bytes
  | .error _ => byteArray []

/-- A line of a stylesheet without carriage returns, as a string. -/
def styleLine (line : Text) : Text :=
  "        ".toList ++ Text.scriptQuote (line.filter fun c => c != '\r')

/-- The lines of a stylesheet, joined when the module runs. -/
def styleArray (content : Text) : Text :=
  "[\n".toList ++ ",\n".toList.intercalate ((content.splitOn '\n').map styleLine) ++
    "\n    ].join('\\n')".toList

/-- A stylesheet with its imports in place. -/
def styleValue (fs : FileTree) (path : Path) : Text :=
  match Stylesheet.inline fs path with
  | .ok content => styleArray content
  | .error _ => emptyString

def folderValue (fs : FileTree) (path : Path) : Text :=
  indentedJson (.object ((Folder.pack fs path).map fun file => (file.1, .string file.2)))

/-- What the file of a path evaluates to in the form that a directive asks for. -/
def value (fs : FileTree) (path : Path) : Directive → Text
  | .text => textValue fs path
  | .json => jsonValue fs path
  | .base64 => base64Value fs path
  | .buffer => bufferValue fs path
  | .css => styleValue fs path
  | .directory => folderValue fs path

/-! ## Modules -/

/-- The module of that name whose default export has that value. -/
def module (name value : Text) : Text :=
  "define(".toList ++ Text.scriptQuote name ++
    ", [\"exports\"], function (exports) \x7b\n    exports.__esModule = true;\n".toList ++
    "    exports[\"default\"] = ".toList ++ value ++ ";\n\x7d);".toList

/-- The path of the file of a resource. -/
def filePath (root : Path) (resource : Resource) : Path :=
  Path.clean (Path.join root resource.sourcePath)

/-- The module of a resource, its file seen from the project folder. -/
def fragment (fs : FileTree) (root : Path) (resource : Resource) : Text :=
  module resource.name (value fs (filePath root resource) resource.directive)

/-- The bundle with the modules of its resources in front and its literals replaced. There is no result
at all if the literals cannot be replaced. -/
def inject (fs : FileTree) (root : Path) (code : Text) : Option (Except BundleError Text) :=
  match Document.read code with
  | .error e => some (.error e)
  | .ok doc => (doc.remap? code).map fun body =>
    .ok (['\n'].intercalate (doc.resources.map (fragment fs root) ++ [body]))

end AmdBundle.Fragment
