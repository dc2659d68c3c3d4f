import AmdBundle.Base64
import AmdBundle.FileTree.Access

/-!
# Folders as one value

All files below a folder, each with its path from the folder and its content in base64. Folders come
before files, and either kind is sorted by name. Links below the folder are passed over, and so are
files that cannot be read and folders that cannot be listed.

* `listing` : the entries of one folder in that order;
* `filesBelow` : the names that lead to all files below a folder;
* `pack` : those files that can be read.
-/

set_option autoImplicit false

namespace AmdBundle.Folder

def isFolder (item : Text × Entry) : Bool :=
  item.2 == .folder

def precedes (a b : Text × Entry) : Bool :=
  if isFolder a == isFolder b then Text.before a.1 b.1 else isFolder a

/-- The entries of a folder in order, none if it cannot be listed. -/
def listing (fs : FileTree) (loc : Location) : List (Text × Entry) :=
  (fs.listed loc).mergeSort precedes

/-- The files below a location by their names on the way from the folder; `depth` bounds how deep
folders are nested. -/
def filesBelow (fs : FileTree) : Nat → Location → List Text → List (List Text)
  | 0, _, _ => []
  | depth + 1, loc, way =>
    (listing fs loc).flatMap fun item =>
      match item.2 with
      | .folder => filesBelow fs depth (loc ++ [item.1]) (way ++ [item.1])
      | .file _ => [way ++ [item.1]]
      | .link _ => []

/-- The path of a file from the folder. -/
def key (names : List Text) : Text :=
  ['/'].intercalate names

/-- A file by its path from the folder, in base64; none if it cannot be read, as when that is not
allowed, or when its whole path is too long. -/
def packed? (fs : FileTree) (path : Path) (names : List Text) : Option (Text × Text) :=
  match fs.readBytes (Path.join path (key names)) with
  | .error _ => none
  | .ok content => some (key names, Base64.encode content)

/-- All files below a folder by their path from it, in base64; none if there is no such folder. -/
def pack (fs : FileTree) (path : Path) : List (Text × Text) :=
  match fs.locate path with
  | .error _ => []
  | .ok loc =>
    if fs.isFolderAt loc then
      (filesBelow fs (fs.entries.length + 1) loc []).filterMap (packed? fs path)
    else []

end AmdBundle.Folder
