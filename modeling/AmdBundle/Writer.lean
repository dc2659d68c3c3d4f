import AmdBundle.Bundle
import AmdBundle.Error.Command
import AmdBundle.FileTree.Access
import AmdBundle.Progress

/-!
# Writing bundles back

The writer is told every new content of the output of the compiler and puts a bundle in its place.
What it wrote itself comes back to it as well, and is passed over. A bundle is made first and written
later, and the files may change in between.

* `Writer` : how many bundles were written, the last error, and what it is about to do;
* `Writer.take` : it is told a content; `Writer.work` : the next thing that it does with it;
* `Writer.receive` : all that a content does;
* `Writer.takeError` : the last error, once.
-/

set_option autoImplicit false

namespace AmdBundle

/-- What a writer is about to do. -/
inductive Writer.Task where
  | idle
  /-- Make the bundle of a content. -/
  | bundling (content : Text)
  | writing (out : Text)
  deriving DecidableEq, Repr

structure Writer where
  outFile : Path
  options : BundleOptions
  bundles : Nat
  /-- Why the last content was not bundled, unless that was told before. -/
  lastError : Option CommandError
  task : Writer.Task
  deriving DecidableEq, Repr

namespace Writer

def start (outFile : Path) (options : BundleOptions) : Writer :=
  ⟨outFile, options, 0, none, .idle⟩

/-- The error of a bundle that could not be written. -/
def unwritable (e : FileError) : CommandError :=
  (CommandError.system (.ofFile e)).withContext "unable to write bundle"

/-- The writer that was told a content. -/
def take (w : Writer) (content : Text) : Writer :=
  if isBundle content then w else { w with task := .bundling content }

/-- The writer after it failed. -/
def fail (w : Writer) (e : CommandError) : Writer :=
  { w with task := .idle, lastError := some e }

/-- The next thing that the writer does. -/
def work (w : Writer) (fs : FileTree) : Progress Writer :=
  match w.task with
  | .idle => .done
  | .bundling content =>
    match bundle fs w.options content with
    | none => .panic
    | some (.ok out) => .more { w with task := .writing out } fs
    | some (.error e) => .more (w.fail (.bundle e)) fs
  | .writing out =>
    match fs.writeFile w.outFile (Text.encode out) with
    | .ok written =>
      .more { w with task := .idle, bundles := w.bundles + 1, lastError := none } written
    | .error e => .more (w.fail (unwritable e)) fs

/-- The writer that has gone on, and the files behind it; none if it cannot. -/
def goOn (w : Writer) (fs : FileTree) : Option (Writer × FileTree) :=
  match w.work fs with
  | .more next left => some (next, left)
  | .done => some (w, fs)
  | .panic => none

/-- The writer and the files after a content was received: first a bundle is made, then it is written,
and others change the files in between. -/
def receive (w : Writer) (fs : FileTree) (content : Text) (meanwhile : FileTree → FileTree) :
    Option (Writer × FileTree) := do
  let (made, left) ← (w.take content).goOn fs
  made.goOn (meanwhile left)

/-- The last error, and the writer that has told it. -/
def takeError (w : Writer) : Option CommandError × Writer :=
  (w.lastError, { w with lastError := none })

end Writer

end AmdBundle
