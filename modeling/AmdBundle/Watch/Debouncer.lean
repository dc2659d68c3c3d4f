import AmdBundle.Text.Basic

/-!
# Quiet periods

A debouncer hears of changes of a file. Once they have been quiet for a while it reads the file and
sends what it read, unless that is what it sent last.

* `Debouncer` : where it stands and what it sent last; `Debouncer.Event` : what may happen to it;
* `Debouncer.step?` : what happens, if it can happen now.
-/

set_option autoImplicit false

namespace AmdBundle

inductive Debouncer.Phase where
  | waiting
  /-- There were changes; it waits for them to be over. -/
  | quieting
  /-- The changes are over; it is about to read. -/
  | reading
  /-- It is about to send what it read. -/
  | sending (content : Text)
  deriving DecidableEq, Repr

structure Debouncer where
  phase : Debouncer.Phase
  /-- What it read last, at first the empty text. -/
  lastSeen : Text
  deriving DecidableEq, Repr

namespace Debouncer

inductive Event where
  | hear
  | quiet
  /-- It reads the file, of which the text is none if it cannot be read. -/
  | read (content : Option Text)
  | send
  deriving DecidableEq, Repr

def start : Debouncer :=
  ⟨.waiting, []⟩

/-- The debouncer after it read a text. -/
def receive (d : Debouncer) (content : Text) : Debouncer :=
  if content = d.lastSeen then { d with phase := .waiting }
  else ⟨.sending content, content⟩

/-- The debouncer after an event, if that can happen now. -/
def step? (d : Debouncer) : Event → Option Debouncer
  | .hear =>
    match d.phase with
    | .waiting | .quieting => some { d with phase := .quieting }
    | _ => none
  | .quiet => if d.phase = .quieting then some { d with phase := .reading } else none
  | .read content =>
    if d.phase = .reading then
      match content with
      | some text => some (d.receive text)
      | none => some { d with phase := .waiting }
    else none
  | .send =>
    match d.phase with
    | .sending _ => some { d with phase := .waiting }
    | _ => none

def outgoing? (d : Debouncer) : Option Text :=
  match d.phase with
  | .sending content => some content
  | _ => none

end Debouncer

end AmdBundle
