import AmdBundle.Build
import AmdBundle.CommandLine.Parse
import AmdBundle.CommandLine.Usage
import AmdBundle.Shell.Program

/-!
# The program

Reads the command line, the environment and the files of the current folder, runs the build on them
and writes back the files that it changed.
-/

set_option autoImplicit false

namespace AmdBundle.Main

/-- The folders on the way to a location, and the location itself. -/
def foldersTo (loc : Location) : List (Location × Entry) :=
  (List.range loc.length).map fun n => (loc.take (n + 1), .folder)

/-- All that stands below the current folder and can be found there. -/
def readFiles : IO FileTree := do
  let base ← IO.currentDir
  let start : Location := Path.parts base.toString.toList
  let mut entries := foldersTo start
  let mut unreadable := []
  let mut pending := [(base, start)]
  while !pending.isEmpty do
    let folders := pending
    pending := []
    for (folder, loc) in folders do
      match ← folder.readDir.toBaseIO with
      | .error _ => unreadable := loc :: unreadable
      | .ok items =>
        for item in items do
          let here := loc ++ [item.fileName.toList]
          match (← item.path.symlinkMetadata).type with
          | .dir =>
            entries := (here, .folder) :: entries
            pending := (item.path, here) :: pending
          | .symlink =>
            entries := (here, .link (← IO.FS.realPath item.path).toString.toList) :: entries
          | .file =>
            match ← (IO.FS.readBinFile item.path).toBaseIO with
            | .ok content => entries := (here, .file content.toList) :: entries
            | .error _ =>
              entries := (here, .file []) :: entries
              unreadable := here :: unreadable
          | .other => pure ()
  return { entries, current := start, unreadable }

/-- The path of a location as the system takes it. -/
def systemPath (loc : Location) : String :=
  String.ofList (FileTree.pathOf loc)

/-- Writes what has changed from one tree to another. -/
def writeChanges (before after : FileTree) : IO Unit := do
  for (loc, _) in before.entries do
    match before.find? loc, after.find? loc with
    | some (.file _), none => IO.FS.removeFile (systemPath loc)
    | _, _ => pure ()
  for (loc, entry) in after.entries do
    if before.find? loc != some entry then
      match entry with
      | .folder => IO.FS.createDirAll (systemPath loc)
      | .file content => IO.FS.writeBinFile (systemPath loc) ⟨content.toArray⟩
      | .link _ => pure ()

/-- A variable as the system writes it. -/
def variableOf (text : Text) : Option (Text × Text) :=
  Text.splitOnce '=' text

def readVariables : IO Settings.Variables := do
  let bytes ← IO.FS.readBinFile "/proc/self/environ"
  return ((Text.decode bytes.toList).getD [] |>.splitOn '\x00').filterMap variableOf

/-- The code of a program that broke off. -/
def brokenOff : UInt32 := 101

/-- Runs a build and tells how it went. -/
def runBuild (arguments : BuildArguments) : IO UInt32 := do
  let files ← readFiles
  let result := build Shell.host files (← readVariables) arguments
  writeChanges files result.files
  for line in result.printed do
    IO.println (String.ofList line)
  match result.outcome with
  | none => return brokenOff
  | some (.ok _) => return 0
  | some (.error e) =>
    IO.eprintln ("Error: " ++ e.report.text)
    for help in e.report.help do
      IO.eprintln ("  help: " ++ help)
    return UInt32.ofNat (e.exitCode % 256).toNat

end AmdBundle.Main

def main (arguments : List String) : IO UInt32 := do
  match AmdBundle.CommandLine.parse (arguments.map String.toList) with
  | .ok line => AmdBundle.Main.runBuild line.build
  | .error e =>
    if e.exitCode = 0 then IO.println e.message else IO.eprintln e.message
    return UInt32.ofNat e.exitCode
