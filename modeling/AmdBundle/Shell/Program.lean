import AmdBundle.Host
import AmdBundle.Shell.Run

/-!
# Programs

The shell and the utilities can be run as programs. No other file can be.

* `startProgram` : what a program with arguments is going to do, or why it cannot be started;
* `host` : a system that has these programs and watches every file.
-/

set_option autoImplicit false

namespace AmdBundle.Shell

/-- The surroundings of a program that is started from the current folder. -/
def surroundingsIn (fs : FileTree) : Surroundings :=
  ⟨fs.current, [], .outlet .normal, .outlet .errors⟩

def programFolders : List Text :=
  ["/bin/", "/usr/bin/"].map String.toList

/-- The name of a program without the folder of the programs. -/
def programName (program : Text) : Text :=
  ((programFolders.findSome? fun folder => Text.dropWord folder program).filter fun name =>
    !name.contains '/').getD program

def shellNames : List Text :=
  ["sh", "dash", "bash"].map String.toList

/-- What a program that is a file does: it cannot be run. -/
def startFile (fs : FileTree) (program : Text) : SystemError :=
  if !program.contains '/' then .ofFile .notFound
  else
    match fs.entryAt? program with
    | .ok _ => .ofFile .permissionDenied
    | .error fault => .ofFile fault

/-- Does a text hold the character that no name may hold? -/
def hasNul (text : Text) : Bool :=
  text.contains '\x00'

/-- What a program is going to do. -/
def startProgram (i : Invocation) (fs : FileTree) : Except SystemError Activity :=
  let name := programName i.program
  let env := surroundingsIn fs
  if hasNul i.program || i.arguments.any hasNul then
    .error ⟨.other, "nul byte found in provided data"⟩
  else if shellNames.contains name then .ok (shell callLimit env i.program i.arguments)
  else
    match program? name with
    | some program => .ok (program env i.arguments .ended)
    | none => .error (startFile fs i.program)

/-- A system that has no programs but these, and watches every file. -/
def host : Host where
  watchFault? := fun _ _ => none
  start := startProgram

end AmdBundle.Shell
