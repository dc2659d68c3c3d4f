import AmdBundle.FileTree.Walk

/-!
# Reading and writing files

* `contentOf`, `textOf` : what a file holds; `readBytes`, `readText` : the same, if it can be read;
* `writeFile` : make a file or give it a new content; its folder has to be there;
* `makeFolder`, `makeFolders` : make one folder, or all that are missing on the way.
-/

set_option autoImplicit false

namespace AmdBundle.FileTree

/-- The bytes that the file holds to which a path leads, whether or not it can be read. -/
def contentOf (fs : FileTree) (path : Path) : Except FileError Bytes := do
  match ← fs.entryAt? path with
  | .file content => .ok content
  | _ => .error .isFolder

/-- The bytes of the file that a path leads to. -/
def readBytes (fs : FileTree) (path : Path) : Except FileError Bytes := do
  let loc ← fs.locate path
  if fs.canRead loc then fs.contentOf path else .error .permissionDenied

/-- The text that is written as those bytes. -/
def asText (content : Bytes) : Except FileError Text :=
  match Text.decode content with
  | some text => .ok text
  | none => .error .notText

/-- The text that the file holds to which a path leads, whether or not it can be read. -/
def textOf (fs : FileTree) (path : Path) : Except FileError Text := do
  asText (← fs.contentOf path)

/-- The text of the file that a path leads to. -/
def readText (fs : FileTree) (path : Path) : Except FileError Text := do
  asText (← fs.readBytes path)

/-- The tree after the file of that path got the content. -/
def writeFile (fs : FileTree) (path : Path) (content : Bytes) : Except FileError FileTree := do
  let loc ← fs.placeOf path
  .ok (fs.set loc (.file content))

/-- The names with idle ones at the end taken off. -/
def dropEmptyEnd (names : List Text) : List Text :=
  (names.reverse.dropWhile List.isEmpty).reverse

/-- The tree after one folder was made. -/
def makeFolder (fs : FileTree) (path : Path) : Except FileError FileTree := do
  match refused? path with
  | some fault => .error fault
  | none =>
    let names := dropEmptyEnd (Path.names path)
    let loc ← fs.walk linkLimit (fs.startOf path) names.dropLast
    match names.getLast? with
    | none => .error .exists
    | some name =>
      if !fs.isFolderAt loc then .error .notFolder
      else if Path.isIdle name || name == Path.up then .error .exists
      else if nameLimit < Text.byteLength name then .error .nameTooLong
      else
        match fs.find? (loc ++ [name]) with
        | some _ => .error .exists
        | none => .ok (fs.set (loc ++ [name]) .folder)

/-- The paths before a path, the longest first; `fuel` bounds their number. -/
def ancestors : Nat → Path → List Path
  | 0, _ => []
  | fuel + 1, path =>
    match Path.parent? path with
    | none => []
    | some before => if before.isEmpty then [] else before :: ancestors fuel before

/-- The tree with a folder at the path, made now or there before. -/
def ensureFolder (fs : FileTree) (path : Path) : FileTree × Option FileError :=
  match fs.makeFolder path with
  | .ok made => (made, none)
  | .error fault => (fs, if fs.isFolder path then none else some fault)

/-- The tree after the folder of that path and all missing ones before it were made, as far as that
went. The paths before it are made only if the folder itself cannot be made for want of them. -/
def makeFoldersFrom (fs : FileTree) (path : Path) : List Path → FileTree × Option FileError
  | [] => fs.ensureFolder path
  | next :: more =>
    match fs.makeFolder path with
    | .error .notFound =>
      match makeFoldersFrom fs next more with
      | (prepared, none) => prepared.ensureFolder path
      | (prepared, some fault) => (prepared, some fault)
    | _ => fs.ensureFolder path

/-- The tree after the folder of that path and all missing ones before it were made, as far as that
went. -/
def makeFolders (fs : FileTree) (path : Path) : FileTree × Option FileError :=
  if path.isEmpty then (fs, none) else makeFoldersFrom fs path (ancestors path.length path)

/-- The absolute path of the current folder. -/
def currentPath (fs : FileTree) : Path :=
  pathOf fs.current

/-- A path seen from the current folder. -/
def absolute (fs : FileTree) (path : Path) : Path :=
  Path.join fs.currentPath path

end AmdBundle.FileTree
