import AmdBundle.Options
import AmdBundle.Text.Classes

/-!
# Names in settings

* `isIdentifier` : a name that a script may declare;
* `isImportName` : a name of the host or of a module;
* `parseExportAs`, `parseImportAs` : how exports and imports are given on the command line.
-/

set_option autoImplicit false

namespace AmdBundle.Settings

/-- A letter, an underscore or a dollar sign. -/
def isNameStart (c : Char) : Bool :=
  Text.isLetter c || c == '_' || c == '$'

def isNamePart (c : Char) : Bool :=
  Text.isLetter c || Text.isNumeral c || c == '_' || c == '$'

/-- A name that a script may declare. -/
def isIdentifier : Text → Bool
  | [] => false
  | c :: rest => isNameStart c && rest.all isNamePart

/-- A name of the host or of a module. -/
def isImportName (name : Text) : Bool :=
  !name.isEmpty && name.all fun c => isNamePart c || c == '-'

def isExportName (name : Text) : Bool :=
  name == ExportAs.commonJsName || isIdentifier name

/-- The name under which exports go, or why they cannot. -/
def parseExportAs (name : Text) : Except String Text :=
  if name.isEmpty then .error "Export name cannot be empty"
  else if isExportName name then .ok name
  else
    .error ("Export name must be 'commonjs' or a JavaScript identifier: '" ++
      String.ofList name ++ "'")

/-- An import written as `outer=inner`, or what is wrong with it. -/
def parseImportAs (kind : ImportKind) (pair : Text) : Except String ImportAs :=
  match Text.splitOnce '=' pair with
  | none => .error ("Expected <global>=<module>, got '" ++ String.ofList pair ++ "'")
  | some (outer, inner) =>
    if isImportName outer && isImportName inner then .ok ⟨kind, outer, inner⟩
    else
      .error ("Expected <global>=<module> with letters, digits, '_', '$' or '-', got '" ++
        String.ofList pair ++ "'")

end AmdBundle.Settings
