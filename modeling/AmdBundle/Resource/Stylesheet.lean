import AmdBundle.FileTree.Access
import AmdBundle.Path.Clean
import AmdBundle.Resource.Import

/-!
# Stylesheets with their imports in place

A stylesheet and everything it imports become one text: every file once, behind the files that it
imports, and without its imports. A file that imports itself, at whatever distance, is a fault.

* `Sheet` : one file; `openSheet` : read it;
* `Loading` : the files that are being loaded and those that have been; `load` : one more file with all
  that it imports;
* `inline` : the text of a file with all its imports;
* `StyleError` : what can go wrong.
-/

set_option autoImplicit false

namespace AmdBundle

inductive StyleError where
  | notFound (path : Path)
  /-- The last path is one of those before it, each of which imports the next. -/
  | cyclic (chain : List Path)
  | unreadable (path : Path) (cause : FileError)
  deriving DecidableEq, Repr

namespace StyleError

/-- The lines of a chain of imports, each further to the right than the one before. -/
def chainLines (depth : Nat) : List Path → Text
  | [] => []
  | path :: more =>
    '\n' :: (List.replicate depth ' ' ++ " ↪ ".toList ++ path ++ chainLines (depth + 1) more)

def message : StyleError → String
  | notFound path => "css file '" ++ String.ofList path ++ "' not found."
  | cyclic chain => "cyclic css @import detected." ++ String.ofList (chainLines 0 chain)
  | unreadable path cause =>
    "unable to read css file '" ++ String.ofList path ++ "': " ++ cause.message

end StyleError

namespace Stylesheet

structure Sheet where
  path : Path
  imports : List Path
  content : Text
  deriving DecidableEq, Repr

/-- The path of an import of a file. -/
def importPath (path target : Path) : Path :=
  Path.clean (Path.join (Path.parent path) target)

def openSheet (fs : FileTree) (path : Path) : Except StyleError Sheet :=
  if fs.isFile path then
    match fs.readText path with
    | .error cause => .error (.unreadable path cause)
    | .ok text =>
      let (targets, content) := splitImports text
      .ok ⟨path, targets.map (importPath path), content⟩
  else .error (.notFound path)

/-- Is the file of that path among the sheets? -/
def isLoaded (path : Path) (sheets : List Sheet) : Bool :=
  sheets.any fun sheet => sheet.path == path

structure Loading where
  /-- The files of which the imports are being loaded, in the order in which they were begun. -/
  resolving : List Path
  /-- The files that have been loaded with all their imports. -/
  resolved : List Sheet
  deriving DecidableEq, Repr

def Loading.start : Loading :=
  ⟨[], []⟩

/-- A file is loaded behind those that it imports, unless it has been before. `fuel` bounds the number
of files that are being loaded at one time. -/
def load (fs : FileTree) : Nat → Loading → Path → Except StyleError Loading
  | 0, l, path => .error (.cyclic (l.resolving ++ [path]))
  | fuel + 1, l, path =>
    if isLoaded path l.resolved then .ok l
    else if l.resolving.contains path then .error (.cyclic (l.resolving ++ [path]))
    else do
      let begun : Loading := ⟨l.resolving ++ [path], l.resolved⟩
      let sheet ← openSheet fs path
      let below ← sheet.imports.foldlM (load fs fuel) begun
      .ok ⟨below.resolving.erase path, below.resolved ++ [sheet]⟩

/-- There are never more files that import each other in turn: a clean path that leads to a file is
known by where it stands before every link that it follows, and where it ends. -/
def chainLimit (fs : FileTree) : Nat :=
  Nat.pow (fs.entries.length + 2) (FileTree.linkLimit + 2)

/-- A file and all it imports, every file behind those that it imports. -/
def sheetsOf (fs : FileTree) (path : Path) : Except StyleError (List Sheet) :=
  (load fs (chainLimit fs) .start (Path.clean (fs.absolute path))).map Loading.resolved

/-- The text of a file with all its imports in place. -/
def inline (fs : FileTree) (path : Path) : Except StyleError Text := do
  let sheets ← sheetsOf fs path
  .ok (['\n'].intercalate (sheets.map Sheet.content))

end Stylesheet

end AmdBundle
