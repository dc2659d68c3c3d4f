import AmdBundle.CommandLine.Basic
import AmdBundle.Settings.Names

/-!
# Reading command lines

A command line is a list of arguments: switches, the word `build`, and behind it switches, options
with a value, and one input. An option is written `--name value`, `--name=value`, `-n value`,
`-nvalue` or `-n=value`; short switches may be joined, and the last of them may be an option. Behind
`--` every argument is plain.

An option whose value comes as the next argument is held back until something else is read; only then
is its value looked at. So a later argument that does not exist is found before a value that is
refused.

* `Switch`, `Slot` : the switches, and what takes a value;
* `settle` : look at the value that is held back;
* `readBuild` : the arguments behind `build`; `CommandLine.parse` : all arguments.
-/

set_option autoImplicit false

namespace AmdBundle.CommandLine

/-! ## Arguments -/

inductive Switch where
  | verbose
  | quiet
  | noColor
  | watch
  | help
  | version
  deriving DecidableEq, Repr

inductive Slot where
  | input
  | outFile
  | target
  | exportAs
  | importAs
  | importAsDefault
  | entryPoint
  | projectRoot
  | config
  | compiler
  deriving DecidableEq, Repr

/-- What an argument with a dash names. -/
inductive Name where
  | switch (s : Switch)
  | slot (s : Slot)
  deriving DecidableEq, Repr

/-- Names with one dash and names with two. -/
structure Names where
  short? : Char → Option Name
  long? : Text → Option Name

/-- The name of a key in a list. -/
def lookup {κ : Type} [DecidableEq κ] (key : κ) : List (κ × Name) → Option Name
  | [] => none
  | (k, name) :: rest => if k = key then some name else lookup key rest

/-- The names behind `build`. -/
def buildNames : Names where
  short? c :=
    lookup c
      [('v', .switch .verbose), ('q', .switch .quiet), ('w', .switch .watch), ('h', .switch .help),
        ('o', .slot .outFile), ('t', .slot .target), ('c', .slot .config)]
  long? word :=
    lookup (String.ofList word)
      [("verbose", .switch .verbose), ("quiet", .switch .quiet), ("no-color", .switch .noColor),
        ("watch", .switch .watch), ("help", .switch .help), ("out-file", .slot .outFile),
        ("target", .slot .target), ("export-as", .slot .exportAs), ("import-as", .slot .importAs),
        ("import-as-default", .slot .importAsDefault), ("entry-point", .slot .entryPoint),
        ("project-root", .slot .projectRoot), ("config", .slot .config),
        ("compiler", .slot .compiler)]

/-- The names in front of the command. -/
def topNames : Names where
  short? c :=
    lookup c
      [('v', .switch .verbose), ('q', .switch .quiet), ('h', .switch .help),
        ('V', .switch .version)]
  long? word :=
    lookup (String.ofList word)
      [("verbose", .switch .verbose), ("quiet", .switch .quiet), ("no-color", .switch .noColor),
        ("help", .switch .help), ("version", .switch .version)]

/-! ## Taking values -/

/-- What was read so far, of which one value may be held back. -/
structure State where
  taken : CommandLine
  /-- What is held back: where a value goes, and the value once it is there. -/
  held : Option (Slot × Option Text)
  hasInput : Bool
  deriving DecidableEq, Repr

def State.start : State :=
  ⟨⟨false, false, false, .none⟩, none, false⟩

/-- A value for something that has none yet. -/
def once {α : Type} (old : Option α) (value : Except UsageError α) : Except UsageError (Option α) :=
  if old.isSome then .error .conflict else value.map some

def pathValue (value : Text) : Except UsageError Path :=
  if value.isEmpty then .error .noValue else .ok value

def checked {α : Type} (value : Except String α) : Except UsageError α :=
  value.mapError .refused

/-- The arguments of a build with one more value. -/
def assign (b : BuildArguments) (value : Text) : Slot → Except UsageError BuildArguments
  | .input => do .ok { b with input := ← once b.input (pathValue value) }
  | .outFile => do .ok { b with outFile := ← once b.outFile (pathValue value) }
  | .target => do .ok { b with target := ← once b.target (checked (Target.named value)) }
  | .exportAs => do
    .ok { b with exportAs := ← once b.exportAs (checked (Settings.parseExportAs value)) }
  | .importAs => do
    let i ← checked (Settings.parseImportAs .asNamespace value)
    .ok { b with importAs := b.importAs ++ [i] }
  | .importAsDefault => do
    let i ← checked (Settings.parseImportAs .byDefault value)
    .ok { b with importAsDefault := b.importAsDefault ++ [i] }
  | .entryPoint => do .ok { b with entryPoint := ← once b.entryPoint (.ok value) }
  | .projectRoot => do .ok { b with projectRoot := ← once b.projectRoot (pathValue value) }
  | .config => do .ok { b with config := ← once b.config (pathValue value) }
  | .compiler => do .ok { b with compiler := ← once b.compiler (.ok value) }

def State.take (s : State) (slot : Slot) (value : Text) : Except UsageError State := do
  let build ← assign s.taken.build value slot
  .ok { s with taken := { s.taken with build } }

/-- The state after the value that is held back was taken. -/
def settle (s : State) : Except UsageError State :=
  match s.held with
  | none => .ok s
  | some (_, none) => .error .noValue
  | some (slot, some value) => ({ s with held := none }).take slot value

def turnOn (old : Bool) : Except UsageError Bool :=
  if old then .error .conflict else .ok true

def State.switch (s : State) (switch : Switch) : Except UsageError State := do
  let s ← settle s
  match switch with
  | .verbose => .ok { s with taken := { s.taken with verbose := ← turnOn s.taken.verbose } }
  | .quiet => .ok { s with taken := { s.taken with quiet := ← turnOn s.taken.quiet } }
  | .noColor => .ok { s with taken := { s.taken with noColor := ← turnOn s.taken.noColor } }
  | .watch =>
    let watch ← turnOn s.taken.build.watch
    .ok { s with taken := { s.taken with build := { s.taken.build with watch } } }
  | .help => .error .help
  | .version => .error .version

/-- The state after an option whose value, if it is not attached, comes next. -/
def State.option (s : State) (slot : Slot) (attached : Option Text) : Except UsageError State := do
  let s ← settle s
  match attached with
  | some value => s.take slot value
  | none => .ok { s with held := some (slot, none) }

/-! ## Reading arguments -/

/-- The name and the attached value of a word behind two dashes. -/
def splitLong (word : Text) : Text × Option Text :=
  match Text.splitOnce '=' word with
  | some (name, value) => (name, some value)
  | none => (word, none)

/-- The state after a word behind two dashes. -/
def readLong (names : Names) (s : State) (word : Text) : Except UsageError State :=
  let (name, attached) := splitLong word
  match names.long? name with
  | none => .error .unknownArgument
  | some (.slot slot) => s.option slot attached
  | some (.switch switch) => if attached.isSome then .error .tooManyValues else s.switch switch

/-- The value attached to an option of one letter. -/
def attachedValue : Text → Option Text
  | [] => none
  | '=' :: value => some value
  | value => some value

/-- The state after letters behind one dash. -/
def readShort (names : Names) : State → Text → Except UsageError State
  | s, [] => .ok s
  | s, c :: rest =>
    match names.short? c with
    | none => .error .unknownArgument
    | some (.slot slot) => s.option slot (attachedValue rest)
    | some (.switch switch) => do readShort names (← s.switch switch) rest

inductive Argument where
  | stop
  | long (word : Text)
  | short (letters : Text)
  | plain (word : Text)
  deriving DecidableEq, Repr

/-- The kind of an argument. One dash alone is plain. -/
def Argument.of : Text → Argument
  | ['-', '-'] => stop
  | '-' :: '-' :: word => long word
  | ['-'] => plain ['-']
  | '-' :: letters => short letters
  | word => plain word

/-- The state after a plain argument: the value that an option waits for, or the input. -/
def State.plain (s : State) (trailing : Bool) (word : Text) : Except UsageError State :=
  match s.held, trailing with
  | some (slot, none), false => .ok { s with held := some (slot, some word) }
  | _, _ =>
    if s.hasInput then .error .unknownArgument
    else do
      let s ← settle s
      .ok { s with held := some (.input, some word), hasInput := true }

/-- The state after the arguments behind `build`; behind `--` if `trailing`. -/
def readBuild (trailing : Bool) (s : State) : List Text → Except UsageError State
  | [] => settle s
  | a :: more =>
    if trailing then do readBuild true (← s.plain true a) more
    else
      match Argument.of a with
      | .stop => readBuild true s more
      | .long word => do readBuild false (← readLong buildNames s word) more
      | .short letters => do readBuild false (← readShort buildNames s letters) more
      | .plain word => do readBuild false (← s.plain false word) more

def checkConflict (c : CommandLine) : Except UsageError CommandLine :=
  if c.verbose && c.quiet then .error .conflict else .ok c

/-- The arguments behind `help`: at most a command. -/
def readHelp : List Text → UsageError
  | [] => .help
  | [command] =>
    if command = "build".toList ∨ command = "help".toList then .help else .unknownCommand
  | _ => .unknownCommand

def withoutCommand (c : CommandLine) : UsageError :=
  if c.verbose || c.quiet || c.noColor then .noCommand else .empty

/-- A plain argument where a command was due. -/
def notCommand (trailing : Bool) (word : Text) : UsageError :=
  if trailing ∧ (word = "build".toList ∨ word = "help".toList) then .unknownArgument
  else .unknownCommand

/-- The command line of switches in front of the command and of all behind it. -/
def merge (top sub : CommandLine) : CommandLine :=
  ⟨top.verbose || sub.verbose, top.quiet || sub.quiet, top.noColor || sub.noColor, sub.build⟩

/-- The arguments from the front on; behind `--` if `trailing`. -/
def readTop (trailing : Bool) (s : State) : List Text → Except UsageError CommandLine
  | [] => .error (withoutCommand s.taken)
  | a :: more =>
    if trailing then .error (notCommand true a)
    else if a = "build".toList then do
      let sub ← readBuild false .start more
      let sub ← checkConflict sub.taken
      let top ← checkConflict s.taken
      .ok (merge top sub)
    else if a = "help".toList then .error (readHelp more)
    else
      match Argument.of a with
      | .stop => readTop true s more
      | .long word => do readTop false (← readLong topNames s word) more
      | .short letters => do readTop false (← readShort topNames s letters) more
      | .plain word => .error (notCommand false word)

/-- What the arguments behind the name of the program say. -/
def parse (arguments : List Text) : Except UsageError CommandLine :=
  readTop false .start arguments

end AmdBundle.CommandLine
