import AmdBundle.Shell.Expansion
import AmdBundle.Shell.Reader
import AmdBundle.Shell.Utility

/-!
# Running scripts

A command is turned into what it does, followed by what is to be done in the state after it.

* `expand`, `expandAll` : what words stand for; `redirect` : the surroundings after redirections;
* `exec` : what a command does; `runScript` : what a script does, one line after the other;
* `shell` : what a shell does with its arguments.

Every function takes a bound on how deep commands may call each other.
-/

set_option autoImplicit false

namespace AmdBundle.Shell

/-- How deep commands may call each other. -/
def callLimit : Nat := 100000

/-- A shell complains with its name and the line of the script. -/
def State.complain (s : State) (left : Nat) (message : String) (next : Activity) : Activity :=
  s.env.complain
    (String.ofList s.name ++ ": " ++ toString (lineOf s.script left) ++ ": " ++ message)
    (orEnd .ended fun _ => next)

/-- The state after a command with that exit code. -/
def State.after (s : State) (status : Nat) : State :=
  { s with status := status }

/-- What a shell whose last command had that exit code is going to do. -/
def leave (s : State) : Activity :=
  .ended (.code s.status)

/-- The exit code that a shell sees of a program that ended so. -/
def seenStatus : ExitStatus → Nat
  | .code value => value % 256
  | .signal number => 128 + number

/-- The pieces of a word that is not cut into fields. -/
def keepWhole (word : Word) : Word :=
  word.map fun
    | .plain text => .quoted text
    | .parameter name demand _ => .parameter name demand true
    | .output script _ => .output script true
    | .sum expression _ => .sum expression true
    | piece => piece

/-- What a program printed as it stands in a word. -/
def printedText (bytes : Bytes) : Text :=
  Text.trimEnd (fun c => c == '\n') ((Text.decode bytes).getD [])

def signalNumber (name : Text) : Nat :=
  match String.ofList (if (Text.dropWord "SIG".toList name).isSome then name.drop 3 else name) with
  | "HUP" => 1
  | "INT" => 2
  | "QUIT" => 3
  | "ABRT" => 6
  | "KILL" => 9
  | "USR1" => 10
  | "SEGV" => 11
  | "USR2" => 12
  | "PIPE" => 13
  | "ALRM" => 14
  | "TERM" => 15
  | other => (digitsValue? 10 other.toList).getD 15

/-- The signal and the numbers of programs that the arguments name. -/
def killTargets : List Text → Nat × List Text
  | ['-', 's'] :: name :: rest => (signalNumber name, rest)
  | ('-' :: c :: name) :: rest => (signalNumber (c :: name), rest)
  | rest => (15, rest)

/-- Signals that do not end a program. -/
def isHarmless (signal : Nat) : Bool :=
  [0, 17, 18, 23, 28].contains signal

def sinkOf (env : Surroundings) (number : Text) : Sink :=
  if number = ['2'] then env.errors
  else if number = ['1'] then env.normal
  else .nowhere

/-- The surroundings with another sink for a number. -/
def withSink (env : Surroundings) (number : Nat) (sink : Sink) : Surroundings :=
  if number = 1 then { env with normal := sink }
  else if number = 2 then { env with errors := sink }
  else env

/-- The reason why a file cannot be opened, as a shell says it. -/
def openReason (creating : Bool) : FileError → String
  | .notFound => if creating then "Directory nonexistent" else "No such file"
  | fault => reasonOf fault

def device? (env : Surroundings) (path : Text) : Option Sink :=
  match String.ofList path with
  | "/dev/null" => some .nowhere
  | "/dev/stdout" => some env.normal
  | "/dev/stderr" => some env.errors
  | _ => none

/-- Something is done with the surroundings after one redirection, or with none if it fails. -/
def redirectOne (s : State) (left : Nat) (r : Redirect) (path : Text)
    (k : Option Surroundings → Activity) : Activity :=
  let fail := fun (creating : Bool) (fault : FileError) =>
    s.complain left
      ("cannot " ++ (if creating then "create " else "open ") ++ String.ofList path ++ ": " ++
        openReason creating fault) (k none)
  let opened := fun (_ : Unit) => s.env.look fun fs =>
    match fs.placeOf path with
    | .ok loc => k (some (withSink s.env r.number (.file loc)))
    | .error fault => fail true fault
  match r.kind, device? s.env path with
  | .copy, _ => k (some (withSink s.env r.number (sinkOf s.env path)))
  | .here, _ => k (some { s.env with input := Text.encode path })
  | .read, some _ => k (some { s.env with input := [] })
  | .read, none =>
    s.env.look fun fs =>
      match fs.readBytes path with
      | .ok bytes => k (some { s.env with input := bytes })
      | .error fault => fail false fault
  | _, some sink => k (some (withSink s.env r.number sink))
  | .write, none =>
    s.env.alter (fun fs => fs.writeFile path []) fun
      | none => opened ()
      | some fault => fail true fault
  | .append, none =>
    s.env.alter (touchFile path) fun
      | none => opened ()
      | some fault => fail true fault

def setAll (s : State) (words : List Text) : State :=
  words.foldl
    (fun s word =>
      match Text.splitOnce '=' word with
      | some (name, value) => s.set name value
      | none => s) s

/-- The switches that the arguments turn on or off, or the new arguments. -/
def applySet (s : State) : List Text → State
  | ['-', '-'] :: rest => { s with arguments := rest }
  | ('-' :: letters) :: rest => applySet { s with stops := s.stops || letters.contains 'e' } rest
  | ('+' :: letters) :: rest => applySet { s with stops := s.stops && !letters.contains 'e' } rest
  | [] => s
  | rest => { s with arguments := rest }

/-- The folder that a shell changes to. -/
def changeFolder (s : State) (left : Nat) (path : Text) (k : State → Activity) : Activity :=
  s.env.look fun fs =>
    match fs.locate path with
    | .ok loc =>
      if fs.isFolderAt loc then k ({ s with env := { s.env with folder := loc } }.after 0)
      else s.complain left ("cd: can't cd to " ++ String.ofList path) (k (s.after 2))
    | .error _ => s.complain left ("cd: can't cd to " ++ String.ofList path) (k (s.after 2))

/-- A command that ended, in the state after it; a failure may end the script. -/
def settle (s : State) (k : State → Activity) : Activity :=
  if s.stops && !s.isTested && s.status != 0 then leave s else k s

/-- The state of a shell of its own. -/
def State.inner (s : State) (env : Surroundings) : State :=
  { s with env := env }

/-- What an option of a shell that it does not know is called. -/
def unknownOption? (letters : Text) : Option Char :=
  letters.find? fun c => !("aefnuvxIimqVEbpcls".toList.contains c)

mutual

/-- Something is done with the fields that a word stands for, added to others. -/
def expand : Nat → State → Word → Fields → (Fields → Activity) → Activity
  | 0, _, _, _, _ => .ended (.code 2)
  | _ + 1, _, [], f, k => k f
  | fuel + 1, s, piece :: rest, f, k =>
    match piece with
    | .plain text => expand fuel s rest (f.addPlain text) k
    | .quoted text => expand fuel s rest (f.addQuoted text) k
    | .parameter ['@'] .value true => expand fuel s rest (f.addEach s.arguments) k
    | .parameter name demand isQuoted =>
      expand fuel s rest (f.addValue isQuoted (demanded (s.value? name) demand)) k
    | .sum expression isQuoted =>
      match sumValue? s expression with
      | some n => expand fuel s rest (f.addValue isQuoted (signed 0 n)) k
      | none =>
        s.complain 0 ("arithmetic expression: expecting primary: \"" ++
          String.ofList expression ++ "\"") (.ended (.code 2))
    | .output script isQuoted =>
      let inner := s.inner { s.env with normal := .outlet .normal }
      (runScript fuel script { inner with script := script } leave).collect [] fun bytes _ =>
        expand fuel s rest (f.addValue isQuoted (printedText bytes)) k

/-- Something is done with the texts that words stand for. -/
def expandAll : Nat → State → List Word → List Text → (List Text → Activity) → Activity
  | 0, _, _, _, _ => .ended (.code 2)
  | _ + 1, _, [], found, k => k found
  | fuel + 1, s, word :: rest, found, k =>
    expand fuel s word .none fun f =>
      if f.all.any isPattern then
        s.env.look fun fs => expandAll fuel s rest (found ++ f.all.flatMap (matching fs)) k
      else expandAll fuel s rest (found ++ f.all.map fieldText) k

/-- Something is done with the state after variables were set. -/
def applySettings : Nat → State → List (Text × Word) → (State → Activity) → Activity
  | 0, _, _, _ => .ended (.code 2)
  | _ + 1, s, [], k => k s
  | fuel + 1, s, (name, word) :: rest, k =>
    expand fuel s (keepWhole word) .none fun f =>
      applySettings fuel (s.set name (f.all.flatMap fieldText)) rest k

/-- Something is done with the surroundings after redirections, or with none if one fails. -/
def redirect : Nat → State → Nat → List Redirect → (Option Surroundings → Activity) → Activity
  | 0, _, _, _, _ => .ended (.code 2)
  | _ + 1, s, _, [], k => k (some s.env)
  | fuel + 1, s, left, r :: rest, k =>
    expand fuel s (keepWhole r.word) .none fun f =>
      redirectOne s left r (f.all.flatMap fieldText) fun
        | none => k none
        | some env => redirect fuel (s.inner env) left rest k

/-- What a script does, one line after the other. -/
def runScript : Nat → Text → State → (State → Activity) → Activity
  | 0, _, _, _ => .ended (.code 2)
  | fuel + 1, script, s, k =>
    match readLine? script with
    | none => k s
    | some (.error fault) =>
      s.complain fault.left ("Syntax error: " ++ fault.message) (.ended (.code 2))
    | some (.ok (command, rest)) => exec fuel command s fun s => runScript fuel rest s k

/-- What a command does in a shell of its own. -/
def execInside : Nat → Command → State → Activity
  | 0, _, _ => .ended (.code 2)
  | fuel + 1, command, s => exec fuel command s leave

/-- What a command does while it is only asked whether it succeeds. -/
def execTested : Nat → Command → State → (State → Activity) → Activity
  | 0, _, _, _ => .ended (.code 2)
  | fuel + 1, command, s, k =>
    exec fuel command { s with isTested := true } fun after =>
      k { after with isTested := s.isTested }

/-- What a command does, and then what is done in the state after it. -/
def exec : Nat → Command → State → (State → Activity) → Activity
  | 0, _, _, _ => .ended (.code 2)
  | fuel + 1, command, s, k =>
    match command with
    | .nothing => k s
    | .simple left settings words redirects =>
      expandAll fuel s words [] fun texts =>
        redirect fuel s left redirects fun
          | none => settle (s.after 2) k
          | some env =>
            match texts with
            | [] => applySettings fuel (s.after 0) settings k
            | name :: arguments =>
              applySettings fuel s settings fun set =>
                call fuel (set.inner env) left name arguments fun after =>
                  let lasts := name = "exec".toList ∧ arguments = []
                  let env := if lasts then after.env else { s.env with folder := after.env.folder }
                  let kept := { after with env := env }
                  settle (if settings.isEmpty then kept else { kept with settings := s.settings }) k
    | .sequence first second => exec fuel first s fun s => exec fuel second s k
    | .both first second =>
      execTested fuel first s fun s => if s.status = 0 then exec fuel second s k else k s
    | .either first second =>
      execTested fuel first s fun s => if s.status = 0 then k s else exec fuel second s k
    | .negation command =>
      execTested fuel command s fun s => k (s.after (if s.status = 0 then 1 else 0))
    | .pipe first second =>
      let front := execInside fuel first (s.inner { s.env with normal := .outlet .normal })
      front.collect [] fun bytes _ =>
        (execInside fuel second (s.inner { s.env with input := bytes })).andThen fun status =>
          settle (s.after (seenStatus status)) k
    | .background command =>
      .start (execInside fuel command (s.inner { s.env with input := [] })) (k (s.after 0))
    | .subshell command redirects =>
      redirect fuel s 0 redirects fun
        | none => settle (s.after 2) k
        | some env =>
          (execInside fuel command (s.inner env)).andThen fun status =>
            settle (s.after (seenStatus status)) k
    | .group command redirects =>
      redirect fuel s 0 redirects fun
        | none => settle (s.after 2) k
        | some env =>
          exec fuel command (s.inner env) fun after =>
            k { after with env := { s.env with folder := after.env.folder } }
    | .choice condition yes no =>
      execTested fuel condition s fun s =>
        exec fuel (if s.status = 0 then yes else no) (s.after 0) k
    | .loop untilSuccess condition body =>
      execTested fuel condition s fun after =>
        if (after.status == 0) == untilSuccess then k (after.after s.status)
        else exec fuel body after fun s => exec fuel (.loop untilSuccess condition body) s k
    | .each name words body =>
      expandAll fuel s words [] fun texts => execEach fuel name body texts (s.after 0) k

/-- What a command does for each of some texts, to which a variable is set. -/
def execEach : Nat → Text → Command → List Text → State → (State → Activity) → Activity
  | 0, _, _, _, _, _ => .ended (.code 2)
  | _ + 1, _, _, [], s, k => k s
  | fuel + 1, name, body, text :: rest, s, k =>
    exec fuel body (s.set name text) fun s => execEach fuel name body rest s k

/-- What a command of that name does with its arguments. -/
def call : Nat → State → Nat → Text → List Text → (State → Activity) → Activity
  | 0, _, _, _, _, _ => .ended (.code 2)
  | fuel + 1, s, left, name, arguments, k =>
    match String.ofList name with
    | ":" => k (s.after 0)
    | "exit" | "return" =>
      match arguments with
      | [] => leave s
      | code :: _ =>
        match digitsValue? 10 code with
        | some n => .ended (.code (n % 256))
        | none =>
          s.complain left ("exit: Illegal number: " ++ String.ofList code) (.ended (.code 2))
    | "cd" =>
      match arguments with
      | [] => k (s.after 0)
      | path :: _ => changeFolder s left path k
    | "export" | "readonly" => k ((setAll s arguments).after 0)
    | "unset" =>
      k ({ s with settings := s.settings.filter fun item => !arguments.contains item.1 }.after 0)
    | "set" => k ((applySet s arguments).after 0)
    | "shift" =>
      let count := ((arguments.head?).bind (digitsValue? 10)).getD 1
      k ({ s with arguments := s.arguments.drop count }.after 0)
    | "read" => k ((arguments.foldl (fun s name => s.set name []) s).after 1)
    | "wait" | "trap" | "umask" | "ulimit" => k (s.after 0)
    | "kill" =>
      let (signal, targets) := killTargets arguments
      if targets.contains ownNumber then
        if isHarmless signal then k (s.after 0) else .ended (.signal signal)
      else s.complain left "kill: No such process\n" (k (s.after 1))
    | "eval" =>
      runScript fuel (spaced arguments) { s with script := spaced arguments } fun after =>
        k { after with script := s.script }
    | "." =>
      s.env.look fun fs =>
        match fs.readText (arguments.headD []) with
        | .error _ =>
          s.complain left (".: cannot open " ++ String.ofList (arguments.headD []) ++ ": No such file")
            (.ended (.code 2))
        | .ok script =>
          runScript fuel script { s with script := script } fun after =>
            k { after with script := s.script }
    | "exec" =>
      match arguments with
      | [] => k (s.after 0)
      | name' :: rest =>
        match program? name' with
        | some program => program s.env rest .ended
        | none => call fuel s left name' rest leave
    | "command" | "env" =>
      match arguments with
      | [] => k (s.after 0)
      | name' :: rest => call fuel s left name' rest k
    | "sh" | "dash" | "/bin/sh" | "/usr/bin/sh" =>
      (shell fuel s.env name arguments).andThen fun status => k (s.after (seenStatus status))
    | _ =>
      match utility? name with
      | some program => program s.env arguments fun status => k (s.after (seenStatus status))
      | none =>
        s.env.look fun fs =>
          if name.contains '/' && (fs.entryAt? name).toOption.isSome then
            s.complain left (String.ofList name ++ ": Permission denied") (k (s.after 126))
          else s.complain left (String.ofList name ++ ": not found") (k (s.after 127))

/-- What a shell of that name does with its arguments. -/
def shell : Nat → Surroundings → Text → List Text → Activity
  | 0, _, _, _ => .ended (.code 2)
  | fuel + 1, env, name, arguments =>
    match arguments with
    | [] | [['-']] | [['-', '-']] =>
      let script := (Text.decode env.input).getD []
      runScript fuel script ⟨script, name, [], [], 0, false, false, { env with input := [] }⟩ leave
    | ['-', '-'] :: rest => shellFile fuel env name false rest
    | ('-' :: letters) :: rest =>
      match unknownOption? letters with
      | some c =>
        env.complain (String.ofList name ++ ": 0: Illegal option -" ++ String.ofList [c])
          (orEnd .ended fun _ => .ended (.code 2))
      | none =>
        let stops := letters.contains 'e'
        if letters.contains 'c' then
          match rest with
          | [] =>
            env.complain (String.ofList name ++ ": 0: -c requires an argument")
              (orEnd .ended fun _ => .ended (.code 2))
          | script :: more =>
            runScript fuel script
              ⟨script, more.headD name, more.tail, [], 0, stops, false, env⟩ leave
        else shellFile fuel env name stops rest
    | rest => shellFile fuel env name false rest

/-- What a shell of that name does with a script in a file. -/
def shellFile : Nat → Surroundings → Text → Bool → List Text → Activity
  | 0, _, _, _, _ => .ended (.code 2)
  | fuel + 1, env, name, stops, arguments =>
    match arguments with
    | [] => shell fuel env name []
    | file :: rest =>
      env.look fun fs =>
        match fs.readText file with
        | .ok script =>
          runScript fuel script ⟨script, file, rest, [], 0, stops, false, env⟩ leave
        | .error fault =>
          env.complain
            (String.ofList name ++ ": 0: cannot open " ++ String.ofList file ++ ": " ++
              openReason false fault) (orEnd .ended fun _ => .ended (.code 2))

end

end AmdBundle.Shell
