import AmdBundle.Directive
import AmdBundle.Path.Clean
import AmdBundle.Text.Classes

/-!
# Resource keys

A token `directive!path` in the header of a module names a file relative to that module. Its key is
the directive, an exclamation mark and the path seen from the top, so that all modules of a bundle
that mean one file share one key.

* `resolve` : a path seen from the folder of a module;
* `ofToken?` : the key of a token, if the token is a resource;
* `relocation` : how many folders the last module of a bundle lies below the top.
-/

set_option autoImplicit false

namespace AmdBundle.ResourceKey

/-- The folder of a module: its name up to the last slash. -/
def folderOf (moduleName : Text) : Text :=
  match Text.splitLast '/' moduleName with
  | some (folder, _) => folder
  | none => []

/-- The parts of a path seen from the folder of a module. -/
def resolvedParts (moduleName path : Text) : List Text :=
  Path.cleanParts false (List.splitOn '/' (folderOf moduleName) ++ List.splitOn '/' path)

/-- A path seen from the folder of a module, without idle parts. -/
def resolve (moduleName path : Text) : Text :=
  match resolvedParts moduleName path with
  | [] => Path.here
  | parts => ['/'].intercalate parts

/-- The key of a directive and a path. -/
def key (directive : Directive) (path : Text) : Text :=
  directive.name.toList ++ '!' :: path

/-- The key of a token in the header of a module, if the token is a resource. -/
def ofToken? (moduleName token : Text) : Option Text :=
  match Text.splitOnce '!' token with
  | none => none
  | some (front, path) =>
    (Directive.ofName? (Text.trim Text.isBlank front)).map fun directive =>
      key directive (resolve moduleName (Text.trim Text.isBlank path))

/-- The way up from the folder of the last module to the top: one step for every part of its name but
the first. -/
def relocation (entryName : Text) : Text :=
  let depth := ((List.splitOn '/' entryName).filter fun part => !part.isEmpty).length - 1
  (List.replicate depth "../".toList).flatten

end AmdBundle.ResourceKey
