import AmdBundle.Shell.Format
import AmdBundle.Shell.Surroundings

/-!
# Utilities

Small programs that scripts call by name. Most are programs of their own, which a refused print ends;
`pwd`, `echo`, `printf` and `test` belong to the shell, and end it with them.

* `Utility` : what a program does with its arguments, and then with how it ended;
* `utility?` : the program of a name as a shell runs it; `program?` : as it runs by itself.
-/

set_option autoImplicit false

namespace AmdBundle.Shell

/-- What a small program does in its surroundings with its arguments; what follows depends on how it
ended. -/
abbrev Utility := Surroundings → List Text → (ExitStatus → Activity) → Activity

/-! ## Files -/

/-- The location that a path names, where a link at its end is not followed. -/
def spot (fs : FileTree) (path : Path) : Except FileError Location :=
  match Path.fileName? path with
  | none => fs.locate path
  | some name =>
    let folder := if (Path.parent path).isEmpty then Path.here else Path.parent path
    (fs.locate folder).map fun loc => loc ++ [name]

/-- The location of the entry that a path names. -/
def existing (fs : FileTree) (path : Path) : Except FileError Location := do
  let loc ← spot fs path
  match fs.find? loc with
  | some _ => .ok loc
  | none => .error .notFound

/-- Where something named `source` goes if it is to become `target`: into that folder, if it is one. -/
def destination (fs : FileTree) (source target : Path) : Path :=
  if fs.isFolder target then Path.join target ((Path.fileName? source).getD []) else target

/-- The entries with those at and below `source` in the place of those at and below `target`. -/
def moved (fs : FileTree) (source target : Location) : FileTree :=
  let kept := if source = target then fs else fs.erase target
  let placeOf := fun loc : Location => ((source.isPrefixOf? loc).map (target ++ ·)).getD loc
  { kept with
    entries := kept.entries.map fun item => (placeOf item.1, item.2)
    unreadable := kept.unreadable.map placeOf }

def moveEntry (source target : Path) (fs : FileTree) : Except FileError FileTree := do
  let loc ← existing fs source
  let place ← spot fs (destination fs source target)
  if fs.isFolderAt place.dropLast then .ok (moved fs loc place) else .error .notFound

/-- The files with a copy of a file. -/
def copyFile (source target : Path) (fs : FileTree) : Except FileError FileTree := do
  fs.writeFile (destination fs source target) (← fs.readBytes source)

/-- The files with copies of all entries at and below a folder that can be read. -/
def copyFolder (source target : Path) (fs : FileTree) : Except FileError FileTree := do
  let loc ← fs.locate source
  let place ← spot fs (destination fs source target)
  .ok (fs.entries.foldl (fun all item =>
    match loc.isPrefixOf? item.1 with
    | some rest => if fs.canRead item.1 then all.set (place ++ rest) item.2 else all
    | none => all) fs)

/-- The files without what a path names, folders included if `withFolders`. -/
def removeEntry (withFolders : Bool) (path : Path) (fs : FileTree) : Except FileError FileTree := do
  let loc ← existing fs path
  if fs.isFolderAt loc && !withFolders then .error .isFolder else .ok (fs.erase loc)

def removeFolder (path : Path) (fs : FileTree) : Except FileError FileTree := do
  let loc ← existing fs path
  if !fs.isFolderAt loc then .error .notFolder
  else if (fs.children loc).isEmpty then .ok (fs.erase loc)
  else .error .exists

/-- The files with a folder and all that are missing before it. -/
def makeAll (path : Path) (fs : FileTree) : Except FileError FileTree :=
  match fs.makeFolders path with
  | (made, none) => .ok made
  | (_, some fault) => .error fault

/-- The files with a file of that path. -/
def touchFile (path : Path) (fs : FileTree) : Except FileError FileTree :=
  match fs.entryAt? path with
  | .ok _ => .ok fs
  | .error _ => fs.writeFile path []

def makeLink (target path : Path) (fs : FileTree) : Except FileError FileTree := do
  let loc ← spot fs (destination fs target path)
  match fs.find? loc with
  | some _ => .error .exists
  | none =>
    if fs.isFolderAt loc.dropLast then .ok (fs.set loc (.link target)) else .error .notFound

/-! ## Arguments -/

/-- The arguments that are options of single letters, and the others. -/
def splitOptions : List Text → Text × List Text
  | [] => ([], [])
  | ['-', '-'] :: rest => ([], rest)
  | ('-' :: c :: letters) :: rest =>
    let (more, others) := splitOptions rest
    (c :: letters ++ more, others)
  | word :: rest =>
    let (more, others) := splitOptions rest
    (more, word :: others)

/-- Something is done for each argument; what follows depends on how often it failed. -/
def forEach (f : Text → (Bool → Activity) → Activity) (k : Nat → Activity) : Nat → List Text → Activity
  | failed, [] => k failed
  | failed, word :: rest => f word fun worked => forEach f k (if worked then failed else failed + 1) rest

/-- The end of a program that failed so often. -/
def endOf (failed : Nat) : ExitStatus :=
  .code (if failed = 0 then 0 else 1)

/-- A change of the files for each argument, with the error that is printed if it does not work. -/
def changeEach (f : Text → FileTree → Except FileError FileTree) (error : Text → String) : Utility :=
  fun env words k =>
    forEach
      (fun word next => env.alter (f word) fun
        | none => next true
        | some fault =>
          env.complain (error word ++ ": " ++ reasonOf fault) (orEnd k fun _ => next false))
      (fun failed => k (endOf failed)) 0 words

/-! ## Reading -/

/-- All files one after the other, with what is to be read in the place of none. -/
def catenate (name : String) (env : Surroundings) (files : List Text)
    (use : Bytes → (Bool → Activity) → Activity) (k : ExitStatus → Activity) : Activity :=
  forEach
    (fun file next =>
      if file = ['-'] then use env.input next
      else env.look fun fs =>
        match fs.readBytes file with
        | .ok bytes => use bytes next
        | .error fault =>
          env.complain (name ++ ": " ++ String.ofList file ++ ": " ++ reasonOf fault)
            (orEnd k fun _ => next false))
    (fun failed => k (endOf failed)) 0 (if files.isEmpty then [['-']] else files)

def cat : Utility := fun env arguments k =>
  catenate "cat" env (splitOptions arguments).2
    (fun bytes next => env.print bytes (orEnd k fun _ => next true)) k

/-- The lines of bytes, each with its line feed. -/
def byteLines : Bytes → List Bytes
  | [] => []
  | b :: rest =>
    if b = 10 then [b] :: byteLines rest
    else
      match byteLines rest with
      | [] => [[b]]
      | line :: others => (b :: line) :: others

/-- The number of lines that the arguments ask for, and the files. -/
def lineCount : List Text → Nat × List Text
  | ['-', 'n'] :: n :: files => ((digitsValue? 10 n).getD 10, files)
  | ('-' :: 'n' :: n) :: files => ((digitsValue? 10 n).getD 10, files)
  | ('-' :: c :: n) :: files =>
    match digitsValue? 10 (c :: n) with
    | some count => (count, files)
    | none => (10, files)
  | files => (10, files)

def head : Utility := fun env arguments k =>
  let (count, files) := lineCount arguments
  catenate "head" env files
    (fun bytes next =>
      env.print ((byteLines bytes).take count).flatten (orEnd k fun _ => next true)) k

def tail : Utility := fun env arguments k =>
  let (count, files) := lineCount arguments
  catenate "tail" env files
    (fun bytes next =>
      let lines := byteLines bytes
      env.print (lines.drop (lines.length - count)).flatten (orEnd k fun _ => next true)) k

def wordCount (inWord : Bool) : Bytes → Nat
  | [] => 0
  | b :: rest =>
    let isBlank := b = 32 ∨ (9 ≤ b ∧ b ≤ 13)
    if isBlank then wordCount false rest
    else if inWord then wordCount true rest
    else wordCount true rest + 1

def wc : Utility := fun env arguments k =>
  let (options, files) := splitOptions arguments
  catenate "wc" env files
    (fun bytes next =>
      let lines := bytes.count 10
      let counts :=
        (if options.contains 'l' then [lines] else []) ++
          (if options.contains 'w' then [wordCount false bytes] else []) ++
          (if options.contains 'c' then [bytes.length] else [])
      let all := if counts.isEmpty then [lines, wordCount false bytes, bytes.length] else counts
      env.printLine (spaced (all.map Text.ofNat ++ files.take 1)) (orEnd k fun _ => next true)) k

/-- Prints what it reads and writes it into files. -/
def tee : Utility := fun env arguments k =>
  let (_, files) := splitOptions arguments
  changeEach (fun file fs => fs.writeFile file env.input)
    (fun file => "tee: " ++ String.ofList file) env files fun status =>
      env.print env.input (orEnd k fun _ => k status)

/-! ## Folders -/

/-- The names in a folder that are shown. -/
def shownNames (all : Bool) (fs : FileTree) (loc : Location) : List Text :=
  let names := ((fs.listed loc).map Prod.fst).mergeSort Text.before
  if all then [Path.here, Path.up] ++ names else names.filter fun name => name.head? != some '.'

def nameLines (names : List Text) : Bytes :=
  names.flatMap fun name => Text.encode name ++ [10]

def listOne (all titled : Bool) (env : Surroundings) (finish : ExitStatus → Activity) (path : Text)
    (next : Bool → Activity) : Activity :=
  env.look fun fs =>
    match fs.locate path with
    | .error fault =>
      env.complain ("ls: cannot access " ++ inQuotes path ++ ": " ++ reasonOf fault)
        (orEnd finish fun _ => next false)
    | .ok loc =>
      if fs.isFolderAt loc then
        let title := if titled then Text.encode path ++ [58, 10] else []
        env.print (title ++ nameLines (shownNames all fs loc)) (orEnd finish fun _ => next true)
      else env.print (nameLines [path]) (orEnd finish fun _ => next true)

def ls : Utility := fun env arguments k =>
  let (options, paths) := splitOptions arguments
  forEach (listOne (options.contains 'a') (1 < paths.length) env k)
    (fun failed => k (.code (if failed = 0 then 0 else 2))) 0
    (if paths.isEmpty then [Path.here] else paths)

def pwd : Utility := fun env _ k =>
  env.printLine (FileTree.pathOf env.folder) (orEnd .ended fun _ => k (.code 0))

/-! ## Changing -/

def mkdir : Utility := fun env arguments k =>
  let (options, paths) := splitOptions arguments
  changeEach (fun path fs => if options.contains 'p' then makeAll path fs else fs.makeFolder path)
    (fun path => "mkdir: cannot create directory " ++ inQuotes path) env paths k

def rmdir : Utility :=
  changeEach removeFolder fun path => "rmdir: failed to remove " ++ inQuotes path

def touch : Utility :=
  changeEach touchFile fun path => "touch: cannot touch " ++ inQuotes path

def rm : Utility := fun env arguments k =>
  let (options, paths) := splitOptions arguments
  let withFolders := options.contains 'r' || options.contains 'R'
  changeEach
    (fun path fs =>
      match removeEntry withFolders path fs with
      | .error .notFound => if options.contains 'f' then .ok fs else .error .notFound
      | result => result)
    (fun path => "rm: cannot remove " ++ inQuotes path) env paths k

/-- The last argument and those before it. -/
def splitTarget (words : List Text) : List Text × Text :=
  (words.dropLast, words.getLast?.getD [])

def mv : Utility := fun env arguments k =>
  let (sources, target) := splitTarget (splitOptions arguments).2
  changeEach (fun source => moveEntry source target)
    (fun source => "mv: cannot stat " ++ inQuotes source) env sources k

def cp : Utility := fun env arguments k =>
  let (options, words) := splitOptions arguments
  let (sources, target) := splitTarget words
  let deep := options.contains 'r' || options.contains 'R' || options.contains 'a'
  changeEach
    (fun source fs =>
      if deep && fs.isFolder source then copyFolder source target fs else copyFile source target fs)
    (fun source => "cp: cannot stat " ++ inQuotes source) env sources k

def ln : Utility := fun env arguments k =>
  let (sources, target) := splitTarget (splitOptions arguments).2
  changeEach (fun source => makeLink source target)
    (fun source => "ln: failed to create symbolic link " ++ inQuotes source) env sources k

/-! ## Printing -/

def echo : Utility := fun env arguments k =>
  env.print (echoed arguments) (orEnd .ended fun _ => k (.code 0))

def printf : Utility := fun env arguments k =>
  match if arguments.head? = some ['-', '-'] then arguments.tail else arguments with
  | [] =>
    env.complain "printf: usage: printf format [arg ...]" (orEnd .ended fun _ => k (.code 2))
  | text :: rest => env.print (format text rest) (orEnd .ended fun _ => k (.code 0))

/-- The whole numbers from one to another. -/
def numbers (first step : Int) : Nat → List Int
  | 0 => []
  | count + 1 => first :: numbers (first + step) step count

def seq : Utility := fun env arguments k =>
  let show' := fun (first step last : Int) =>
    let count := if step = 0 then 0 else ((last - first) / step + 1).toNat
    env.print (nameLines ((numbers first step count).map (signed 0)))
      (orEnd k fun _ => k (.code 0))
  match arguments.map numberOf with
  | [last] => show' 1 1 last
  | [first, last] => show' first 1 last
  | [first, step, last] => show' first step last
  | _ => env.complain "seq: missing operand" (orEnd k fun _ => k (.code 1))

/-- Prints the last part of a path, without an ending. -/
def basename : Utility := fun env arguments k =>
  let name := (Path.fileName? (arguments.headD [])).getD (arguments.headD [])
  let ending := arguments.tail.headD []
  let short := if ending.isEmpty || ending = name then name else (Text.dropEnding ending name).getD name
  env.printLine short (orEnd k fun _ => k (.code 0))

/-- Prints the path before the last part. -/
def dirname : Utility := fun env arguments k =>
  let folder := Path.parent (arguments.headD [])
  env.printLine (if folder.isEmpty then Path.here else folder) (orEnd k fun _ => k (.code 0))

/-! ## Time -/

/-- The milliseconds of a number of seconds with a point. -/
def millisecondsOf (seconds : Text) : Nat :=
  let digits := seconds.dropWhile fun c => !(c.isDigit || c == '.')
  let whole := (digitsValue? 10 (digits.takeWhile Char.isDigit)).getD 0
  let behind := ((digits.dropWhile Char.isDigit).drop 1).takeWhile Char.isDigit
  let thousandths := (digitsValue? 10 ((behind ++ ['0', '0', '0']).take 3)).getD 0
  let scale := if seconds.getLast? = some 'm' then 60 else 1
  (whole * 1000 + thousandths) * scale

def sleep : Utility := fun _ arguments k =>
  .wait (arguments.foldl (fun sum word => sum + millisecondsOf word) 0) (k (.code 0))

/-! ## Conditions -/

/-- A condition on one file or text. -/
def unaryTest (fs : FileTree) (operator word : Text) : Bool :=
  match String.ofList operator with
  | "-n" => !word.isEmpty
  | "-z" => word.isEmpty
  | "-e" => (fs.entryAt? word).toOption.isSome
  | "-f" => fs.isFile word
  | "-d" => fs.isFolder word
  | "-s" => ((fs.contentOf word).toOption.map fun bytes => !bytes.isEmpty).getD false
  | "-r" => (fs.locate word).toOption.any fs.canRead
  | "-w" => (fs.entryAt? word).toOption.isSome
  | "-x" => fs.isFolder word
  | "-L" | "-h" =>
    match (spot fs word).toOption.bind fs.find? with
    | some (.link _) => true
    | _ => false
  | _ => false

/-- A condition on two texts or numbers. -/
def binaryTest (left operator right : Text) : Bool :=
  match String.ofList operator with
  | "=" | "==" => left == right
  | "!=" => left != right
  | "-eq" => numberOf left == numberOf right
  | "-ne" => numberOf left != numberOf right
  | "-lt" => numberOf left < numberOf right
  | "-le" => numberOf left ≤ numberOf right
  | "-gt" => numberOf right < numberOf left
  | "-ge" => numberOf right ≤ numberOf left
  | _ => false

def holds (fs : FileTree) : List Text → Bool
  | [] => false
  | ['!'] :: rest =>
    match rest with
    | [] => true
    | rest => !holds fs rest
  | [word] => !word.isEmpty
  | [operator, word] => unaryTest fs operator word
  | left :: operator :: right :: rest =>
    let first := binaryTest left operator right
    match rest with
    | ['-', 'a'] :: more => first && holds fs more
    | ['-', 'o'] :: more => first || holds fs more
    | _ => first

/-- Fails if a condition does not hold. -/
def test : Utility := fun env arguments k =>
  env.look fun fs => k (.code (if holds fs arguments then 0 else 1))

/-- Fails if a condition in brackets does not hold. -/
def bracket : Utility := fun env arguments k =>
  if arguments.getLast? = some [']'] then test env arguments.dropLast k
  else env.complain "[: missing ]" (orEnd .ended fun _ => k (.code 2))

/-- A program that only has an exit code. -/
def exitWith (code : Nat) : Utility := fun _ _ k => k (.code code)

/-! ## Names -/

def utilities : List (String × Utility) :=
  [("true", exitWith 0), ("false", exitWith 1), ("cat", cat), ("head", head), ("tail", tail),
    ("wc", wc), ("tee", tee), ("ls", ls), ("pwd", pwd), ("mkdir", mkdir), ("rmdir", rmdir),
    ("touch", touch), ("rm", rm), ("mv", mv), ("cp", cp), ("ln", ln), ("echo", echo),
    ("printf", printf), ("seq", seq), ("basename", basename), ("dirname", dirname),
    ("sleep", sleep), ("test", test), ("[", bracket)]

def utility? (name : Text) : Option Utility :=
  (utilities.find? fun item => item.1.toList = name).map Prod.snd

def plainEcho : Utility := fun env arguments k =>
  env.printLine (spaced arguments) (orEnd k fun _ => k (.code 0))

/-- The program of a name that is not run by a shell. -/
def program? (name : Text) : Option Utility :=
  if name = "echo".toList then some plainEcho else utility? name

end AmdBundle.Shell
