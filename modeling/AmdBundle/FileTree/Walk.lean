import AmdBundle.FileTree.Basic

/-!
# Walking a path

A path names a location. The walk goes name by name from the root or the current folder, follows
links, and lets `..` go up from where it stands; it needs a folder under every step. Forty links may
be followed on one walk.

* `walk` : along a list of names; `locate` : along a path;
* `place` : the location where a file of that path is, or would be made.
-/

set_option autoImplicit false

namespace AmdBundle.FileTree

/-- How many links one walk may follow. -/
def linkLimit : Nat := 40

/-- The number of bytes of the longest name. -/
def nameLimit : Nat := 255

/-- The number of bytes of the longest path. -/
def pathLimit : Nat := 4095

/-- Where the names of a link's target start. -/
def linkBase (target : Path) (loc : Location) : Location :=
  if Path.isAbsolute target then [] else loc

/-- The location that the names lead to from `loc`, with at most `links` links on the way. -/
def walk (fs : FileTree) (links : Nat) (loc : Location) : List Text → Except FileError Location
  | [] => .ok loc
  | name :: rest =>
    if !fs.isFolderAt loc then .error .notFolder
    else if Path.isIdle name then walk fs links loc rest
    else if name = Path.up then walk fs links loc.dropLast rest
    else if nameLimit < Text.byteLength name then .error .nameTooLong
    else
      match fs.find? (loc ++ [name]) with
      | none => .error .notFound
      | some (.link target) =>
        match links with
        | 0 => .error .tooManyLinks
        | links + 1 => walk fs links (linkBase target loc) (Path.names target ++ rest)
      | some _ => walk fs links (loc ++ [name]) rest
termination_by names => (links, names.length)

/-- The faults of a path that show before any walk. -/
def refused? (path : Path) : Option FileError :=
  if path.isEmpty then some .notFound
  else if path.contains '\x00' then some .nulInName
  else if pathLimit < Text.byteLength path then some .nameTooLong
  else none

def startOf (fs : FileTree) (path : Path) : Location :=
  if Path.isAbsolute path then [] else fs.current

/-- The location that a path leads to. -/
def locate (fs : FileTree) (path : Path) : Except FileError Location :=
  match refused? path with
  | some fault => .error fault
  | none => fs.walk linkLimit (fs.startOf path) (Path.names path)

/-- The entry that a path leads to. -/
def entryAt? (fs : FileTree) (path : Path) : Except FileError Entry := do
  let loc ← fs.locate path
  match fs.find? loc with
  | some entry => .ok entry
  | none => .error .notFound

/-- Does the path lead to a file? -/
def isFile (fs : FileTree) (path : Path) : Bool :=
  match fs.entryAt? path with
  | .ok (.file _) => true
  | _ => false

/-- Does the path lead to a folder? -/
def isFolder (fs : FileTree) (path : Path) : Bool :=
  match fs.entryAt? path with
  | .ok .folder => true
  | _ => false

/-- The location of the file that the names lead to from `loc`. The file need not be there, but its
folder has to be; a link at the end is followed. -/
def place (fs : FileTree) (links : Nat) (loc : Location) : List Text → Except FileError Location
  | [] => .error .isFolder
  | name :: rest =>
    if !fs.isFolderAt loc then .error .notFolder
    else if Path.isIdle name then place fs links loc rest
    else if name = Path.up then place fs links loc.dropLast rest
    else if nameLimit < Text.byteLength name then .error .nameTooLong
    else if !rest.isEmpty && rest.all List.isEmpty then .error .isFolder
    else
      match fs.find? (loc ++ [name]) with
      | none => if rest.isEmpty then .ok (loc ++ [name]) else .error .notFound
      | some (.link target) =>
        match links with
        | 0 => .error .tooManyLinks
        | links + 1 => place fs links (linkBase target loc) (Path.names target ++ rest)
      | some (.file _) =>
        if rest.isEmpty then .ok (loc ++ [name]) else place fs links (loc ++ [name]) rest
      | some .folder => place fs links (loc ++ [name]) rest
termination_by names => (links, names.length)

/-- The location where a file of that path is or would be made. -/
def placeOf (fs : FileTree) (path : Path) : Except FileError Location :=
  match refused? path with
  | some fault => .error fault
  | none => fs.place linkLimit (fs.startOf path) (Path.names path)

end AmdBundle.FileTree
