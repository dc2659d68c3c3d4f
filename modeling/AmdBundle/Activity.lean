import AmdBundle.FileTree.Basic

/-!
# What a running program does

A running program waits, prints, looks at the files and changes them, and starts other programs, one
act after the other, until it ends. What it does next may depend on the files as it finds them, and on
whether somebody still reads what it prints.

* `Activity` : all that a program is going to do;
* `Activity.act` : its next act; `Effect` : what that act does;
* `Activity.andThen` : go on with another program; `Activity.collect` : keep what it prints.
-/

set_option autoImplicit false

namespace AmdBundle

inductive ExitStatus where
  | code (value : Nat)
  | signal (number : Nat)
  deriving DecidableEq, Repr

namespace ExitStatus

/-- The end of a program that prints where nobody reads any more. -/
def brokenPipe : ExitStatus :=
  signal 13

def isSuccess (s : ExitStatus) : Bool :=
  s == .code 0

/-- The code of the end, `-1` after a signal. -/
def toInt : ExitStatus → Int
  | code value => value
  | signal _ => -1

end ExitStatus

inductive Outlet where
  | normal
  | errors
  deriving DecidableEq, Repr

/-- All that a running program is going to do. -/
inductive Activity where
  | ended (status : ExitStatus)
  | wait (milliseconds : Nat) (next : Activity)
  /-- It prints; what follows depends on whether somebody reads there. -/
  | print (outlet : Outlet) (bytes : Bytes) (next : Bool → Activity)
  /-- It changes the files; what follows depends on the files before. -/
  | change (f : FileTree → FileTree) (next : FileTree → Activity)
  /-- It starts another program, which runs beside it. -/
  | start (other next : Activity)

structure Effect where
  next : Activity
  files : FileTree
  printed : Option (Outlet × Bytes)
  started : Option Activity

namespace Activity

def hasEnded : Activity → Bool
  | ended _ => true
  | _ => false

/-- How the program ended, if it did. -/
def status? : Activity → Option ExitStatus
  | ended status => some status
  | _ => none

/-- The next act, if there is one; `isHeard` tells of each outlet whether somebody reads there. -/
def act (fs : FileTree) (isHeard : Outlet → Bool) : Activity → Option Effect
  | ended _ => none
  | wait _ next => some ⟨next, fs, none, none⟩
  | print outlet bytes next =>
    if isHeard outlet then some ⟨next true, fs, some (outlet, bytes), none⟩
    else some ⟨next false, fs, none, none⟩
  | change f next => some ⟨next fs, f fs, none, none⟩
  | start other next => some ⟨next, fs, none, some other⟩

/-- The milliseconds that the next act takes. -/
def duration : Activity → Nat
  | wait milliseconds _ => milliseconds
  | _ => 0

/-- What is done, and then what follows from how it ended. -/
def andThen : Activity → (ExitStatus → Activity) → Activity
  | ended status, k => k status
  | wait milliseconds next, k => wait milliseconds (next.andThen k)
  | print outlet bytes next, k => print outlet bytes fun heard => (next heard).andThen k
  | change f next, k => change f fun fs => (next fs).andThen k
  | start other next, k => start other (next.andThen k)

/-- What is done, with all that goes to the normal outlet kept instead of printed, and then what
follows from the kept bytes and from how it ended. -/
def collect (kept : Bytes) : Activity → (Bytes → ExitStatus → Activity) → Activity
  | ended status, k => k kept status
  | wait milliseconds next, k => wait milliseconds (next.collect kept k)
  | print .normal bytes next, k => (next true).collect (kept ++ bytes) k
  | print .errors bytes next, k => print .errors bytes fun heard => (next heard).collect kept k
  | change f next, k => change f fun fs => (next fs).collect kept k
  | start other next, k => start other (next.collect kept k)

end Activity

end AmdBundle
