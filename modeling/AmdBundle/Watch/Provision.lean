import AmdBundle.FileTree.Access

/-!
# The file that is watched

Before a file is watched it is made, empty, with all folders that are missing before it.

* `FileTree.provision` : the files after that, and the location of the file or what went wrong.
-/

set_option autoImplicit false

namespace AmdBundle.FileTree

/-- The files after the file of that name was made or emptied in a folder. -/
def provisionIn (fs : FileTree) (folder : Path) (name : Text) :
    FileTree × Except String Location :=
  match fs.locate folder with
  | .error fault => (fs, .error fault.message)
  | .ok loc =>
    match fs.writeFile (pathOf (loc ++ [name])) [] with
    | .error fault => (fs, .error fault.message)
    | .ok written => (written, .ok (loc ++ [name]))

/-- The files after the file of that path was made or emptied, and its location. Folders that were
made on the way stay even if the file cannot be made. -/
def provision (fs : FileTree) (path : Path) : FileTree × Except String Location :=
  match Path.fileName? (fs.absolute path) with
  | none => (fs, .error "watch target has no file name")
  | some name =>
    match fs.makeFolders (Path.parent (fs.absolute path)) with
    | (made, some fault) => (made, .error fault.message)
    | (made, none) => made.provisionIn (Path.parent (fs.absolute path)) name

end AmdBundle.FileTree
