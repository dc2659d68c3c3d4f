import AmdBundle.Compilation.Basic

/-!
# A compile in time

Acts take no time, except that waiting takes as long as it says. A content is handled at once. Quiet
periods and the limits of the driver have their lengths too. What is due first happens first, and of
two steps due at once the one that stands first in `Clock.due`; so nobody reacts to a program before
it waits or ends.

* `Timing` : the lengths; `Clock` : a compile and when its next steps are due;
* `Clock.run` : the compile at its end.
-/

set_option autoImplicit false

namespace AmdBundle

structure Timing where
  /-- Between two looks at output that is late, and at most between two last lines. -/
  tickMs : Nat
  timeoutMs : Nat
  /-- How long the output has to be quiet. -/
  debounceMs : Nat
  deriving DecidableEq, Repr

/-- The first look at which late output has taken too long, in milliseconds from the first look. -/
def Timing.settleMs (t : Timing) : Nat :=
  (t.timeoutMs + t.tickMs - 1) / t.tickMs * t.tickMs

/-- A compile and when its next steps are due, in milliseconds from its start. -/
structure Clock (η : Type) where
  now : Nat
  compilation : Compilation η
  compilerDue : Nat
  othersDue : List Nat
  /-- When the output has been quiet for long enough. -/
  quietDue : Nat
  /-- When the driver goes on: gives up on further lines, or on late output. -/
  driverDue : Nat

namespace Clock

variable {η : Type}

/-- A clock at the start of a compile. -/
def start (c : Compilation η) : Clock η :=
  ⟨0, c, 0, [], 0, 0⟩

/-! ## What is due -/

/-- An event that is due at a time, if the condition holds. -/
def dueIf (condition : Bool) (time : Nat) (event : Compilation.Event) :
    List (Nat × Compilation.Event) :=
  if condition then [(time, event)] else []

def actsDue (k : Clock η) : List (Nat × Compilation.Event) :=
  dueIf (!k.compilation.compiler.hasEnded) k.compilerDue .compilerActs ++
    ((k.compilation.others.zip k.othersDue).zipIdx.flatMap fun item =>
      dueIf (!item.1.1.hasEnded) item.1.2 (.otherActs item.2))

/-- What the readers do next: they read in the order of printing. -/
def readerEvents (k : Clock η) : List (Nat × Compilation.Event) :=
  k.compilation.printed.head?.toList.map fun item => (k.now, .receive item.1)

def driverEvents (k : Clock η) : List (Nat × Compilation.Event) :=
  let c := k.compilation
  let closed := !c.normal.isOpen && !c.errors.isOpen
  match c.driver.phase with
  | .running => dueIf c.compiler.hasEnded k.now .exit
  | .draining _ => [(if closed && c.lines.isEmpty then k.now else k.driverDue, .drained)]
  | .settling => [(k.driverDue, .tick true)]
  | _ => []

def debouncerEvents (k : Clock η) : List (Nat × Compilation.Event) :=
  dueIf (0 < k.compilation.unheard) k.now .hear ++
    match k.compilation.debouncer.phase with
    | .waiting => []
    | .quieting => [(k.quietDue, .quiet)]
    | .reading => [(k.now, .read)]
    | .sending _ => [(k.now, .send)]

def due (k : Clock η) : List (Nat × Compilation.Event) :=
  dueIf true k.now .handle ++ actsDue k ++ readerEvents k ++ dueIf true k.now .line ++
    dueIf true k.now .content ++ debouncerEvents k ++ dueIf true k.now .lastLines ++ driverEvents k

def first : List (Nat × Compilation.Event × Compilation η) →
    Option (Nat × Compilation.Event × Compilation η)
  | [] => none
  | item :: rest =>
    match first rest with
    | none => some item
    | some other => if item.1 ≤ other.1 then some item else some other

/-- The step that is due first of those that can happen, and what it leads to. -/
def next? (h : Handler η) (k : Clock η) : Option (Nat × Compilation.Event × Compilation η) :=
  first (k.due.filterMap fun item =>
    (k.compilation.step? h item.2).map fun c => (max k.now item.1, item.2, c))

/-! ## Going on -/

/-- When the acting programs are due after an act of length `length`. -/
def afterAct (length : Nat) (k : Clock η) : Compilation.Event → Clock η
  | .compilerActs => { k with compilerDue := k.now + length }
  | .otherActs i => { k with othersDue := k.othersDue.set i (k.now + length) }
  | _ => k

/-- The length of the act of an event. -/
def lengthOf (c : Compilation η) : Compilation.Event → Nat
  | .compilerActs => c.compiler.duration
  | .otherActs i => ((c.others[i]?).map Activity.duration).getD 0
  | _ => 0

/-- Programs that were started are due at once. -/
def welcome (k : Clock η) : Clock η :=
  { k with
    othersDue := k.othersDue ++
      List.replicate (k.compilation.others.length - k.othersDue.length) k.now }

/-- When the output has been quiet for long enough after an event. -/
def afterHearing (t : Timing) (k : Clock η) : Compilation.Event → Clock η
  | .hear => { k with quietDue := k.now + t.debounceMs }
  | _ => k

/-- When the driver goes on after an event. -/
def afterDriving (t : Timing) (k : Clock η) (event : Compilation.Event) : Clock η :=
  match event, k.compilation.driver.phase with
  | .drained, .settling => { k with driverDue := k.now + t.settleMs }
  | .exit, .draining _ => { k with driverDue := k.now + t.tickMs }
  | .line, .draining _ => { k with driverDue := k.now + t.tickMs }
  | _, _ => k

def advance (t : Timing) (k : Clock η) (time : Nat) (event : Compilation.Event)
    (c : Compilation η) : Clock η :=
  let length := lengthOf k.compilation event
  afterDriving t
    (afterHearing t (welcome (afterAct length { k with now := time, compilation := c } event)) event)
    event

/-- The clock after at most `steps` steps, or once the driver is through or its handler cannot go on. -/
def runFor (t : Timing) (h : Handler η) : Nat → Clock η → Clock η
  | 0, k => k
  | steps + 1, k =>
    if k.compilation.driver.result?.isSome || k.compilation.hasPanicked h then k
    else
      match k.next? h with
      | none => k
      | some (time, event, c) => runFor t h steps (advance t k time event c)

/-- How many steps are run at most. -/
def stepLimit : Nat := 1000000

def run (t : Timing) (h : Handler η) (c : Compilation η) : Compilation η :=
  (runFor t h stepLimit (start c)).compilation

end Clock

end AmdBundle
