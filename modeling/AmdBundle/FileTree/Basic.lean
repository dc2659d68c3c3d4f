import AmdBundle.Path.Basic
import AmdBundle.Text.Utf8

/-!
# File trees

A file tree lists files, folders and links by their location, the names on the way from the root.
The root itself is always a folder. One location is the current folder, from which relative paths
start. The system may refuse to show what stands somewhere; it still tells that something does.

* `find?` : what stands at a location; `set`, `erase` : change it;
* `canRead` : is the file or folder at a location shown;
* `children` : the entries of a folder, in the order of the list; `listed` : those that are shown.
-/

set_option autoImplicit false

namespace AmdBundle

/-- The names on the way from the root. -/
abbrev Location := List Text

inductive Entry where
  | file (content : Bytes)
  | folder
  | link (target : Path)
  deriving DecidableEq, Repr

/-- Files, folders and links, and the folder from which relative paths start. -/
structure FileTree where
  entries : List (Location × Entry)
  current : Location
  /-- The locations of the files that cannot be read and of the folders that cannot be listed. -/
  unreadable : List Location := []
  deriving DecidableEq, Repr

/-- Why the files cannot do what they are asked to. -/
inductive FileError where
  | notFound
  | permissionDenied
  | exists
  | notFolder
  | isFolder
  | nameTooLong
  | tooManyLinks
  | nulInName
  | notText
  deriving DecidableEq, Repr

def FileError.message : FileError → String
  | notFound => "No such file or directory (os error 2)"
  | permissionDenied => "Permission denied (os error 13)"
  | .exists => "File exists (os error 17)"
  | notFolder => "Not a directory (os error 20)"
  | isFolder => "Is a directory (os error 21)"
  | nameTooLong => "File name too long (os error 36)"
  | tooManyLinks => "Too many levels of symbolic links (os error 40)"
  | nulInName => "file name contained an unexpected NUL byte"
  | notText => "stream did not contain valid UTF-8"

namespace FileTree

/-- The entry at a location of a list of entries. -/
def lookup (loc : Location) : List (Location × Entry) → Option Entry
  | [] => none
  | (key, entry) :: rest => if key = loc then some entry else lookup loc rest

def find? (fs : FileTree) (loc : Location) : Option Entry :=
  if loc = [] then some .folder else lookup loc fs.entries

/-- The list with `entry` at the location, in the place of what stood there, else at the end. -/
def put (loc : Location) (entry : Entry) : List (Location × Entry) → List (Location × Entry)
  | [] => [(loc, entry)]
  | (key, old) :: rest =>
    if key = loc then (key, entry) :: rest else (key, old) :: put loc entry rest

/-- The tree with `entry` at the location. -/
def set (fs : FileTree) (loc : Location) (entry : Entry) : FileTree :=
  { fs with entries := put loc entry fs.entries }

/-- The tree without the location and everything below it. What is made there later can be read. -/
def erase (fs : FileTree) (loc : Location) : FileTree :=
  { fs with
    entries := fs.entries.filter fun item => !loc.isPrefixOf item.1
    unreadable := fs.unreadable.filter fun place => !loc.isPrefixOf place }

/-- May the file at the location be read, or the folder be listed? -/
def canRead (fs : FileTree) (loc : Location) : Bool :=
  !fs.unreadable.contains loc

/-- Is there a folder at the location? -/
def isFolderAt (fs : FileTree) (loc : Location) : Bool :=
  fs.find? loc == some .folder

/-- The name of a location directly below `loc`. -/
def childName? (loc key : Location) : Option Text :=
  match loc.isPrefixOf? key with
  | some [name] => some name
  | _ => none

/-- The names and entries directly below a location. -/
def children (fs : FileTree) (loc : Location) : List (Text × Entry) :=
  fs.entries.filterMap fun item => (childName? loc item.1).map fun name => (name, item.2)

/-- The names and entries that are found when the folder at a location is listed. -/
def listed (fs : FileTree) (loc : Location) : List (Text × Entry) :=
  if fs.canRead loc then fs.children loc else []

def pathOf (loc : Location) : Path :=
  '/' :: ['/'].intercalate loc

end FileTree

end AmdBundle
