import AmdBundle.Compilation.Lines
import AmdBundle.Compiler.Driver
import AmdBundle.Host
import AmdBundle.Progress
import AmdBundle.Watch.Debouncer
import AmdBundle.Watch.Provision

/-!
# A running compile

The compiler, the debouncer of its output and the driver run side by side. Each of them takes one
step at a time, and nothing is said about whose turn it is: a step that can happen now may happen.

* `Handler` : what is done with the lines and contents that the driver hands over;
* `Compilation` : everything that runs, with the files; `Compilation.start` : how it starts;
* `Compilation.Event`, `Compilation.step?` : what may happen, and what it does;
* `Compilation.Reaches` : what any number of steps may lead to.
-/

set_option autoImplicit false

namespace AmdBundle

/-- What is done with what the driver hands over. The driver waits while a content is handled, and
nobody else does. -/
structure Handler (η : Type) where
  onLine : η → Text → η
  onContent : η → Text → η
  /-- The next thing that is done with the last content. -/
  work : η → FileTree → Progress η

structure Compilation (η : Type) where
  files : FileTree
  /-- The location of the output, which is watched while there is one. -/
  watched : Option Location
  /-- Are its changes still reported? They are as long as its folder stays. -/
  isReported : Bool
  compiler : Activity
  /-- The programs that the compiler started beside itself. -/
  others : List Activity
  printed : List (Outlet × Bytes)
  normal : LineReader
  /-- The reader of what is printed as errors. -/
  errors : LineReader
  /-- The lines that were read and not yet handed over. -/
  lines : List Text
  /-- The number of changes of the output of which the debouncer has not heard. -/
  unheard : Nat
  debouncer : Debouncer
  /-- The contents that were sent and not yet handed over. -/
  contents : List Text
  driver : Driver
  /-- Is a content being handled, for which the driver waits? -/
  isHandling : Bool
  kept : η

namespace Compilation

variable {η : Type}

/-! ## Steps -/

inductive Event where
  | compilerActs
  | otherActs (index : Nat)
  /-- The reader of an outlet reads what was printed there next. -/
  | receive (outlet : Outlet)
  /-- A change of the output is reported that does not alter it. -/
  | stir
  | hear
  | quiet
  | read
  | send
  /-- The driver hands the first content over. -/
  | content
  /-- The handler goes on with the content that it was given, or is through with it. -/
  | handle
  | line
  /-- The lines that have not ended come out, since nobody prints any more. -/
  | lastLines
  /-- The driver notes that the compiler has ended. -/
  | exit
  /-- The compiler cannot be awaited. -/
  | lost (cause : SystemError)
  | drained
  /-- Time passes for the driver, up to its limit if `late`. -/
  | tick (late : Bool)
  deriving DecidableEq, Repr

/-- How many contents may wait for the driver. -/
def queueLimit : Nat := 16

def outputFound? (fs : FileTree) (watched : Option Location) : Option Entry :=
  watched.bind fs.find?

/-- Were the files changed in such a way that something new stands at the output? -/
def isNewOutput (watched : Option Location) (before after : FileTree) : Bool :=
  (outputFound? after watched).isSome &&
    outputFound? after watched != outputFound? before watched

/-- Is there still the folder of the output? -/
def keepsFolder (watched : Option Location) (files : FileTree) : Bool :=
  watched.all fun loc => files.isFolderAt loc.dropLast

/-- The compile after the files were changed. -/
def setFiles (c : Compilation η) (files : FileTree) : Compilation η :=
  let isReported := c.isReported && keepsFolder c.watched files
  { c with
    files := files
    isReported := isReported
    unheard :=
      if isReported && isNewOutput c.watched c.files files then c.unheard + 1 else c.unheard }

/-- The compile after an act, of which `next` is left to do by the one who did it. -/
def takeEffect (c : Compilation η) (e : Effect) : Compilation η :=
  let c := c.setFiles e.files
  { c with printed := c.printed ++ e.printed.toList, others := c.others ++ e.started.toList }

/-- Does somebody read what is printed there? -/
def isHeard (c : Compilation η) : Outlet → Bool
  | .normal => c.normal.isOpen
  | .errors => c.errors.isOpen

/-- The first of the items that is printed at an outlet, and the others. -/
def splitPrinted (outlet : Outlet) :
    List (Outlet × Bytes) → Option (Bytes × List (Outlet × Bytes))
  | [] => none
  | (o, bytes) :: rest =>
    if o = outlet then some (bytes, rest)
    else (splitPrinted outlet rest).map fun found => (found.1, (o, bytes) :: found.2)

/-- The reader of an outlet reads what was printed there next. -/
def readPrinted (c : Compilation η) (outlet : Outlet) : Option (Compilation η) :=
  (splitPrinted outlet c.printed).map fun found =>
    match outlet with
    | .normal =>
      let (normal, lines) := c.normal.push found.1
      { c with printed := found.2, normal, lines := c.lines ++ lines }
    | .errors =>
      let (errors, lines) := c.errors.push found.1
      { c with printed := found.2, errors, lines := c.lines ++ lines }

def allEnded (c : Compilation η) : Bool :=
  c.compiler.hasEnded && c.others.all Activity.hasEnded

/-- The compile with its driver after an event, if the driver waits for no content to be handled.
Once it is through, the output is no longer watched. -/
def drive (c : Compilation η) (e : Driver.Event) : Option (Compilation η) :=
  if c.isHandling then none
  else
    (c.driver.step? e).map fun driver =>
      { c with driver, watched := if driver.result?.isSome then none else c.watched }

/-- The compile with its debouncer after an event, if the output is watched. -/
def debounce (c : Compilation η) (e : Debouncer.Event) : Option (Compilation η) :=
  if c.watched.isSome then (c.debouncer.step? e).map fun debouncer => { c with debouncer }
  else none

/-- The text of the output, none if it cannot be read. -/
def outputText? (c : Compilation η) : Option Text :=
  c.watched.bind fun loc => (c.files.readText (FileTree.pathOf loc)).toOption

/-- The debouncer sends what it read, if there is room. -/
def sendContent (c : Compilation η) : Option (Compilation η) :=
  match c.debouncer.outgoing? with
  | none => none
  | some content =>
    if c.contents.length < queueLimit then
      (c.debounce .send).map fun c => { c with contents := c.contents ++ [content] }
    else none

/-- The driver hands the first content over, if it looks for contents. -/
def handContent (h : Handler η) (c : Compilation η) : Option (Compilation η) :=
  match c.contents with
  | [] => none
  | content :: rest =>
    (c.drive .content).map fun _ =>
      { c with contents := rest, isHandling := true, kept := h.onContent c.kept content }

/-- The handler goes on with a content, and the driver once that has been handled. If the handler cannot
go on, neither can the driver, and the compile never has a result. -/
def goOn (h : Handler η) (c : Compilation η) : Option (Compilation η) :=
  if c.isHandling then
    match h.work c.kept c.files with
    | .more kept files => some { c.setFiles files with kept }
    | .done => { c with isHandling := false }.drive .content
    | .panic => none
  else none

/-- Is it the handler that cannot go on? -/
def hasPanicked (h : Handler η) (c : Compilation η) : Bool :=
  c.isHandling && (h.work c.kept c.files).isPanic

/-- The driver hands the first line over. -/
def handLine (h : Handler η) (c : Compilation η) : Option (Compilation η) :=
  match c.lines with
  | [] => none
  | line :: rest =>
    (c.drive .line).map fun c => { c with lines := rest, kept := h.onLine c.kept line }

/-- The lines that have not ended come out. -/
def closeLines (c : Compilation η) : Option (Compilation η) :=
  if c.allEnded && c.printed.isEmpty && (c.normal.isOpen || c.errors.isOpen) then
    let (normal, last) := c.normal.close
    let (errors, lastError) := c.errors.close
    some { c with normal, errors, lines := c.lines ++ last ++ lastError }
  else none

/-- The compile after an event, if that can happen now. -/
def step? (h : Handler η) (c : Compilation η) : Event → Option (Compilation η)
  | .compilerActs =>
    (c.compiler.act c.files c.isHeard).map fun e => { c.takeEffect e with compiler := e.next }
  | .otherActs i =>
    ((c.others[i]?).bind fun a => a.act c.files c.isHeard).map fun e =>
      let c := { c with others := c.others.set i e.next }
      c.takeEffect e
  | .receive outlet => c.readPrinted outlet
  | .stir =>
    if c.watched.isSome && c.isReported then some { c with unheard := c.unheard + 1 } else none
  | .hear =>
    if 0 < c.unheard then
      (c.debounce .hear).map fun c => { c with unheard := c.unheard - 1 }
    else none
  | .quiet => c.debounce .quiet
  | .read => c.debounce (.read c.outputText?)
  | .send => c.sendContent
  | .content => c.handContent h
  | .handle => c.goOn h
  | .line => c.handLine h
  | .lastLines => c.closeLines
  | .exit => c.compiler.status?.bind fun status => c.drive (.exited status)
  | .lost cause => c.drive (.broken (.spawn cause))
  | .drained => c.drive .drained
  | .tick late => c.drive (.tick late)

/-! ## Runs -/

/-- A compile before its compiler is started. -/
def ready (files : FileTree) (kept : η) : Compilation η where
  files := files
  watched := none
  isReported := true
  compiler := .ended (.code 0)
  others := []
  printed := []
  normal := .start
  errors := .start
  lines := []
  unheard := 0
  debouncer := .start
  contents := []
  driver := .start
  isHandling := false
  kept := kept

def fail (c : Compilation η) (e : CompileError) : Compilation η :=
  (c.drive (.broken e)).getD c

/-- A compile that begins with a watched output and a compiler. -/
def begin (c : Compilation η) (watched : Location) (compiler : Activity) : Compilation η :=
  ({ c with watched := some watched, compiler := compiler }.drive .started).getD c

/-- The start of a compile into `outFile`, of which the compiler is started once the output is
watched. -/
def start (host : Host) (files : FileTree) (invocation : Invocation) (outFile : Path) (kept : η) :
    Compilation η :=
  match files.provision outFile with
  | (files, .error reason) => (ready files kept).fail (.watch reason)
  | (files, .ok watched) =>
    match host.watchFault? files watched with
    | some reason => (ready files kept).fail (.watch reason)
    | none =>
      match host.start invocation files with
      | .error cause => (ready files kept).fail (.spawn cause)
      | .ok running => (ready files kept).begin watched running

/-- What any number of steps may lead to. -/
inductive Reaches (h : Handler η) : Compilation η → Compilation η → Prop where
  | refl (c : Compilation η) : Reaches h c c
  | step {c d e : Compilation η} (event : Event) :
      Reaches h c d → d.step? h event = some e → Reaches h c e

end Compilation

end AmdBundle
