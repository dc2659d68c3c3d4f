import AmdBundle.Activity
import AmdBundle.FileTree.Access

/-!
# What surrounds a command

* `Surroundings` : the folder of a command, what it reads and where it prints;
* `print`, `complain` : acts of printing; `look`, `alter` : acts on the files as seen from the folder;
* `orEnd` : what follows a print of a program that is ended if nobody reads there.
-/

set_option autoImplicit false

namespace AmdBundle.Shell

inductive Sink where
  | outlet (o : Outlet)
  | file (loc : Location)
  | nowhere
  deriving DecidableEq, Repr

structure Surroundings where
  folder : Location
  input : Bytes
  normal : Sink
  errors : Sink
  deriving DecidableEq, Repr

/-- The files with bytes at the end of a file. -/
def appendAt (loc : Location) (bytes : Bytes) (fs : FileTree) : FileTree :=
  match fs.find? loc with
  | some (.file content) => fs.set loc (.file (content ++ bytes))
  | _ => fs

/-- Bytes go to a sink; what follows depends on whether it takes them. -/
def Sink.put (s : Sink) (bytes : Bytes) (next : Bool → Activity) : Activity :=
  if bytes.isEmpty then next true
  else
    match s with
    | .outlet o => .print o bytes next
    | .file loc => .change (appendAt loc bytes) fun _ => next true
    | .nowhere => next true

/-- What follows a print: `next`, or else how the program ends if nobody reads there. -/
def orEnd (finish : ExitStatus → Activity) (next : Unit → Activity) (heard : Bool) : Activity :=
  if heard then next () else finish .brokenPipe

namespace Surroundings

/-- The files as seen from the folder. -/
def view (env : Surroundings) (fs : FileTree) : FileTree :=
  { fs with current := env.folder }

def print (env : Surroundings) (bytes : Bytes) (next : Bool → Activity) : Activity :=
  env.normal.put bytes next

/-- A text is printed with a line feed behind it. -/
def printLine (env : Surroundings) (text : Text) (next : Bool → Activity) : Activity :=
  env.print (Text.encode text ++ [10]) next

/-- An error is printed with a line feed behind it. -/
def complain (env : Surroundings) (message : String) (next : Bool → Activity) : Activity :=
  env.errors.put (Text.encode message.toList ++ [10]) next

def look (env : Surroundings) (k : FileTree → Activity) : Activity :=
  .change (fun fs => fs) fun fs => k (env.view fs)

/-- The files are changed if that works; what follows depends on whether it did. -/
def alter {α : Type} (env : Surroundings) (f : FileTree → Except α FileTree)
    (k : Option α → Activity) : Activity :=
  .change
    (fun fs =>
      match f (env.view fs) with
      | .ok changed => { changed with current := fs.current }
      | .error _ => fs)
    fun fs =>
      match f (env.view fs) with
      | .ok _ => k none
      | .error fault => k (some fault)

end Surroundings

/-- What is wrong with a file, as programs say it. -/
def reasonOf : FileError → String
  | .notFound => "No such file or directory"
  | .permissionDenied => "Permission denied"
  | .exists => "File exists"
  | .notFolder => "Not a directory"
  | .isFolder => "Is a directory"
  | .nameTooLong => "File name too long"
  | .tooManyLinks => "Too many levels of symbolic links"
  | .nulInName => "Invalid argument"
  | .notText => "Invalid argument"

def inQuotes (text : Text) : String :=
  "'" ++ String.ofList text ++ "'"

end AmdBundle.Shell
