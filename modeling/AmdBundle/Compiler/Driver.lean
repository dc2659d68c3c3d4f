import AmdBundle.Activity
import AmdBundle.Error.Command

/-!
# Driving the compiler

A compile joins two sources of events: the compiler that ends, and its output that changes. The
compiler may end before its last write is seen; if it ended well and nothing was seen yet, the driver
waits for that write for a limited time.

* `Driver` : where a compile stands and how many contents it has seen;
* `Driver.step?` : what an event does, if it can happen now;
* `Driver.state` : the state that can be told from outside.
-/

set_option autoImplicit false

namespace AmdBundle

/-- The states of a compile that can be told from outside. -/
inductive DriverState where
  | idle
  | compiling
  | awaitingSettle
  | done
  | failed
  deriving DecidableEq, Repr

def DriverState.name : DriverState → String
  | idle => "idle"
  | compiling => "compiling"
  | awaitingSettle => "awaiting-settle"
  | done => "done"
  | failed => "failed"

/-- How a compile went that did not fail. -/
structure CompileOutcome where
  /-- The number of contents that were handed over. -/
  contents : Nat
  /-- Did the time run out before there was any content? -/
  byTimeout : Bool
  deriving DecidableEq, Repr

inductive Driver.Phase where
  | ready
  | running
  /-- The compiler has ended, and the rest of what it printed is read. -/
  | draining (status : ExitStatus)
  | settling
  | succeeded (outcome : CompileOutcome)
  | failed (e : CompileError)
  deriving DecidableEq, Repr

structure Driver where
  phase : Driver.Phase
  /-- The number of contents handed over so far. -/
  contents : Nat
  deriving DecidableEq, Repr

namespace Driver

inductive Event where
  /-- The output is watched and the compiler runs. -/
  | started
  /-- The output cannot be watched, or the compiler cannot be started or awaited. -/
  | broken (e : CompileError)
  /-- A content of the output arrives and is handed over. -/
  | content
  /-- A printed line arrives and is handed over. -/
  | line
  | exited (status : ExitStatus)
  | drained
  /-- Time has passed, and the limit is reached if `late`. -/
  | tick (late : Bool)
  deriving DecidableEq, Repr

def start : Driver :=
  ⟨.ready, 0⟩

/-- The phase after the compiler ended and all lines were read. -/
def afterExit (status : ExitStatus) (contents : Nat) : Phase :=
  if status.isSuccess then
    if contents = 0 then .settling else .succeeded ⟨contents, false⟩
  else .failed (.exit status.toInt)

/-- The driver after an event, if that can happen now. -/
def step? (d : Driver) : Event → Option Driver
  | .started => if d.phase = .ready then some { d with phase := .running } else none
  | .broken e =>
    match d.phase with
    | .ready | .running => some { d with phase := .failed e }
    | _ => none
  | .content =>
    match d.phase with
    | .running => some { d with contents := d.contents + 1 }
    | .settling => some ⟨.succeeded ⟨d.contents + 1, false⟩, d.contents + 1⟩
    | _ => none
  | .line =>
    match d.phase with
    | .running | .draining _ => some d
    | _ => none
  | .exited status => if d.phase = .running then some { d with phase := .draining status } else none
  | .drained =>
    match d.phase with
    | .draining status => some { d with phase := afterExit status d.contents }
    | _ => none
  | .tick late =>
    if d.phase = .settling then
      some (if late then { d with phase := .succeeded ⟨d.contents, true⟩ } else d)
    else none

/-- The state that can be told from outside. -/
def state (d : Driver) : DriverState :=
  match d.phase with
  | .ready => .idle
  | .running | .draining _ => .compiling
  | .settling => .awaitingSettle
  | .succeeded _ => .done
  | .failed _ => .failed

/-- How the compile went, once it is over. -/
def result? (d : Driver) : Option (Except CompileError CompileOutcome) :=
  match d.phase with
  | .succeeded outcome => some (.ok outcome)
  | .failed e => some (.error e)
  | _ => none

end Driver

end AmdBundle
