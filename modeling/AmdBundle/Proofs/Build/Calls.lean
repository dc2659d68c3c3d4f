import AmdBundle.Proofs.Bundle.Marked
import AmdBundle.Proofs.Bundle.Outcomes
import AmdBundle.Proofs.FileTree.Write
import AmdBundle.Proofs.Lists
import AmdBundle.Writer

/-!
# A writer over many calls

A writer is told contents and asked for its error, in any order, and all the time others may change
the files, even between the making of a bundle and its writing. A content of which nothing comes is the
end of the writer: nobody can ask it for the error.

* `Call`, `Situation.run` : what happens to a writer, one call after the other;
* `Fate` : what comes of a content, said without the writer; `takes_step` : the writer does that;
* `Moment` : a call with the files that it finds; `moments` : those of a run;
* `Accounts` : what the writer counts, which error it owes and which files it leaves alone;
  `accounts_of_run`;
* `run_eq_none_iff` : the runs that have no end; `reports_of_run` : all runs.
-/

set_option autoImplicit false

namespace AmdBundle.Writer

/-! ## Calls -/

/-- What happens to a writer. -/
inductive Call where
  /-- It is told a content. Others change the files between making the bundle and writing it. -/
  | content (text : Text) (meanwhile : FileTree → FileTree)
  | takeError
  | outside (change : FileTree → FileTree)

/-- A writer and the files around it. -/
structure Situation where
  writer : Writer
  files : FileTree

namespace Situation

/-- The situation behind a call; none if the writer cannot go on. -/
def step (s : Situation) : Call → Option Situation
  | .content text meanwhile =>
    (s.writer.receive s.files text meanwhile).map fun next => ⟨next.1, next.2⟩
  | .takeError => some ⟨s.writer.takeError.2, s.files⟩
  | .outside change => some ⟨s.writer, change s.files⟩

def run (s : Situation) (calls : List Call) : Option Situation :=
  calls.foldlM step s

/-- The situation of a new writer. -/
def first (outFile : Path) (options : BundleOptions) (files : FileTree) : Situation :=
  ⟨.start outFile options, files⟩

theorem run_concat (s : Situation) (calls : List Call) (call : Call) :
    s.run (calls ++ [call]) = (s.run calls).bind fun m => m.step call := by
  simp [run, List.foldlM_append]

theorem run_concat_eq_some_iff {s d : Situation} {calls : List Call} {call : Call} :
    s.run (calls ++ [call]) = some d ↔ ∃ m, s.run calls = some m ∧ m.step call = some d := by
  rw [run_concat, Option.bind_eq_some_iff]

end Situation

/-! ## What comes of a content -/

/-- What comes of a content. -/
inductive Fate where
  /-- It is a bundle already. -/
  | passed
  /-- Nothing comes of it. -/
  | panicked
  | unbundled (e : BundleError)
  | unwritten (e : FileError)
  | written
  deriving DecidableEq, Repr

def Fate.error? : Fate → Option CommandError
  | .unbundled e => some (.bundle e)
  | .unwritten e => some (unwritable e)
  | _ => none

/-- What comes of a content that finds these files, for an output and the options of its bundle. -/
def fate (outFile : Path) (options : BundleOptions) (files : FileTree) (text : Text)
    (meanwhile : FileTree → FileTree) : Fate :=
  if isBundle text then .passed
  else
    match bundle files options text with
    | none => .panicked
    | some (.error e) => .unbundled e
    | some (.ok out) =>
      match (meanwhile files).writeFile outFile (Text.encode out) with
      | .error e => .unwritten e
      | .ok _ => .written

/-- The writer waits for a call, for that output and those options. -/
structure Awaits (outFile : Path) (options : BundleOptions) (w : Writer) : Prop where
  outFile : w.outFile = outFile
  options : w.options = options
  idle : w.task = .idle

section
variable {w : Writer} {files : FileTree} {text : Text} {meanwhile : FileTree → FileTree}

theorem receive_of_passed (hidle : w.task = .idle) (htext : isBundle text = true) :
    w.receive files text meanwhile = some (w, meanwhile files) := by
  have htake : w.take text = w := by rw [take, if_pos htext]
  have hgo : ∀ fs, w.goOn fs = some (w, fs) := fun fs => by simp only [goOn, work, hidle]
  simp only [receive, htake, hgo, Option.bind_eq_bind, Option.bind_some]

variable (htext : isBundle text = false)
include htext

theorem take_of_plain : w.take text = { w with task := .bundling text } := by
  simp [take, htext]

theorem receive_of_panicked (hbundle : bundle files w.options text = none) :
    w.receive files text meanwhile = none := by
  simp only [receive, take_of_plain htext, goOn, work, hbundle, Option.bind_eq_bind, Option.bind_none]

theorem receive_of_unbundled {e : BundleError}
    (hbundle : bundle files w.options text = some (.error e)) :
    w.receive files text meanwhile = some (w.fail (.bundle e), meanwhile files) := by
  simp only [receive, take_of_plain htext, goOn, work, hbundle, Option.bind_eq_bind, Option.bind_some,
    fail]

theorem receive_of_unwritten {out : Text} {e : FileError}
    (hbundle : bundle files w.options text = some (.ok out))
    (hwrite : (meanwhile files).writeFile w.outFile (Text.encode out) = .error e) :
    w.receive files text meanwhile = some (w.fail (unwritable e), meanwhile files) := by
  simp only [receive, take_of_plain htext, goOn, work, hbundle, Option.bind_eq_bind, Option.bind_some,
    hwrite, fail]

theorem receive_of_written {out : Text} {written : FileTree}
    (hbundle : bundle files w.options text = some (.ok out))
    (hwrite : (meanwhile files).writeFile w.outFile (Text.encode out) = .ok written) :
    w.receive files text meanwhile =
      some ({ w with task := .idle, bundles := w.bundles + 1, lastError := none }, written) := by
  simp only [receive, take_of_plain htext, goOn, work, hbundle, Option.bind_eq_bind, Option.bind_some,
    hwrite]

end

section
variable {outFile : Path} {options : BundleOptions} {s s' : Situation} {text : Text}
  {meanwhile : FileTree → FileTree}

/-- What a writer does with a content, by what comes of the content. -/
inductive Takes (outFile : Path) (s : Situation) (text : Text) (meanwhile : FileTree → FileTree) :
    Fate → Option Situation → Prop where
  | passes (htext : isBundle text = true) :
      Takes outFile s text meanwhile .passed (some ⟨s.writer, meanwhile s.files⟩)
  | panics (htext : isBundle text = false) (hknot : Document.IsKnotted text) :
      Takes outFile s text meanwhile .panicked none
  | misses {e : BundleError} (htext : isBundle text = false) :
      Takes outFile s text meanwhile (.unbundled e)
        (some ⟨s.writer.fail (.bundle e), meanwhile s.files⟩)
  | givesUp {e : FileError} (htext : isBundle text = false) :
      Takes outFile s text meanwhile (.unwritten e)
        (some ⟨s.writer.fail (unwritable e), meanwhile s.files⟩)
  | writes {out : Text} {written : FileTree} (htext : isBundle text = false)
      (hout : isBundle out = true) (hheld : written.textOf outFile = .ok out) :
      Takes outFile s text meanwhile .written
        (some ⟨{ s.writer with task := .idle, bundles := s.writer.bundles + 1, lastError := none },
          written⟩)

theorem takes_step (text : Text) (meanwhile : FileTree → FileTree)
    (h : Awaits outFile options s.writer) :
    Takes outFile s text meanwhile (fate outFile options s.files text meanwhile)
      (s.step (.content text meanwhile)) := by
  obtain ⟨houtFile, hoptions, hidle⟩ := h
  subst houtFile hoptions
  rw [Situation.step]
  cases htext : isBundle text with
  | true =>
    rw [fate, if_pos htext, receive_of_passed hidle htext]
    exact .passes htext
  | false =>
    rw [fate, if_neg (by simp [htext])]
    cases hbundle : bundle s.files s.writer.options text with
    | none =>
      rw [receive_of_panicked htext hbundle]
      exact .panics htext (bundle_eq_none_iff.mp hbundle)
    | some outcome =>
      cases outcome with
      | error e =>
        rw [receive_of_unbundled htext hbundle]
        exact .misses htext
      | ok out =>
        dsimp only
        cases hwrite : (meanwhile s.files).writeFile s.writer.outFile (Text.encode out) with
        | error e =>
          rw [receive_of_unwritten htext hbundle hwrite]
          exact .givesUp htext
        | ok written =>
          rw [receive_of_written htext hbundle hwrite]
          exact .writes htext (isBundle_of_bundle hbundle) (FileTree.textOf_of_writeFile hwrite)

theorem awaits_step (h : Awaits outFile options s.writer) {call : Call}
    (hstep : s.step call = some s') : Awaits outFile options s'.writer := by
  cases call with
  | content text meanwhile =>
    have htakes := takes_step text meanwhile h
    rw [hstep] at htakes
    generalize fate outFile options s.files text meanwhile = f at htakes
    cases htakes with
    | passes => exact h
    | misses => exact ⟨h.outFile, h.options, rfl⟩
    | givesUp => exact ⟨h.outFile, h.options, rfl⟩
    | writes => exact ⟨h.outFile, h.options, rfl⟩
  | takeError =>
    obtain rfl := Option.some.inj hstep
    exact ⟨h.outFile, h.options, h.idle⟩
  | outside change =>
    obtain rfl := Option.some.inj hstep
    exact h

end

/-! ## Runs -/

/-- A call and the files that it finds. -/
structure Moment where
  call : Call
  files : FileTree

/-- What comes of the content that is told, if one is. -/
def Moment.fate? (outFile : Path) (options : BundleOptions) : Moment → Option Fate
  | ⟨.content text meanwhile, files⟩ => some (fate outFile options files text meanwhile)
  | _ => none

/-- The error that the content leads to. -/
def Moment.error? (outFile : Path) (options : BundleOptions) (m : Moment) : Option CommandError :=
  (m.fate? outFile options).bind Fate.error?

/-- All calls with the files that they find, as long as the writer goes on. -/
def moments (s : Situation) : List Call → List Moment
  | [] => []
  | call :: more =>
    ⟨call, s.files⟩ ::
      match s.step call with
      | some next => moments next more
      | none => []

/-- The call has nothing to do with any error: no content is bundled, and no error is asked for. -/
def Call.IsSilent : Call → Prop
  | .content text _ => isBundle text = true
  | .takeError => False
  | .outside _ => True

/-- The call tells a content of which nothing comes: it is no bundle, and its headers are knotted. -/
def Call.Panics : Call → Prop
  | .content text _ => isBundle text = false ∧ Document.IsKnotted text
  | _ => False

theorem moments_concat {s m : Situation} {calls : List Call} (h : s.run calls = some m) (call : Call) :
    moments s (calls ++ [call]) = moments s calls ++ [⟨call, m.files⟩] := by
  induction calls generalizing s with
  | nil =>
    obtain rfl := Option.some.inj h
    rw [List.nil_append, moments, moments]
    cases s.step call with
    | none => rfl
    | some next => rfl
  | cons first more ih =>
    rw [Situation.run, List.foldlM_cons] at h
    obtain ⟨next, hnext, hmore⟩ := Option.bind_eq_some_iff.mp h
    rw [List.cons_append, moments, moments, hnext]
    exact congrArg _ (ih hmore)

section
variable {outFile : Path} {options : BundleOptions} {s s' : Situation} {call : Call}

/-- A call has no end exactly if nothing comes of the content that it tells. -/
theorem step_eq_none_iff (h : Awaits outFile options s.writer) :
    s.step call = none ↔ call.Panics := by
  cases call with
  | content text meanwhile =>
    have htakes := takes_step text meanwhile h
    rw [Call.Panics]
    constructor
    · intro hnone
      rw [hnone] at htakes
      generalize fate outFile options s.files text meanwhile = f at htakes
      cases htakes with
      | panics htext hknot => exact ⟨htext, hknot⟩
    · rintro ⟨htext, hknot⟩
      rw [Situation.step, receive_of_panicked htext (bundle_eq_none_iff.mpr hknot)]
      rfl
  | takeError => simp [Situation.step, Call.Panics]
  | outside change => simp [Situation.step, Call.Panics]

/-- One call counts if a bundle is written. -/
theorem bundles_step (h : Awaits outFile options s.writer) (hstep : s.step call = some s') :
    s'.writer.bundles = s.writer.bundles +
      [(⟨call, s.files⟩ : Moment)].countP fun m => m.fate? outFile options = some .written := by
  cases call with
  | content text meanwhile =>
    have htakes := takes_step text meanwhile h
    rw [hstep] at htakes
    rw [List.countP_singleton, Moment.fate?]
    generalize fate outFile options s.files text meanwhile = f at htakes ⊢
    cases htakes <;> rfl
  | takeError =>
    obtain rfl := Option.some.inj hstep
    rfl
  | outside change =>
    obtain rfl := Option.some.inj hstep
    rfl

/-- An error is kept over silent calls, and any other call puts its own in the place. -/
theorem lastError_step (h : Awaits outFile options s.writer) (hstep : s.step call = some s')
    (e : CommandError) : s'.writer.lastError = some e ↔
      Moment.error? outFile options ⟨call, s.files⟩ = some e ∨
        call.IsSilent ∧ s.writer.lastError = some e := by
  cases call with
  | content text meanwhile =>
    have htakes := takes_step text meanwhile h
    rw [hstep] at htakes
    rw [Moment.error?, Moment.fate?, Option.bind_some, Call.IsSilent]
    generalize fate outFile options s.files text meanwhile = f at htakes ⊢
    cases htakes with
    | passes htext => simp [Fate.error?, htext]
    | misses htext => simp [Fate.error?, htext, fail]
    | givesUp htext => simp [Fate.error?, htext, fail]
    | writes htext => simp [Fate.error?, htext]
  | takeError =>
    obtain rfl := Option.some.inj hstep
    simp [takeError, Moment.error?, Moment.fate?, Call.IsSilent]
  | outside change =>
    obtain rfl := Option.some.inj hstep
    simp [Moment.error?, Moment.fate?, Call.IsSilent]

end

/-! ## Accounts -/

/-- What a writer for an output counts and owes after some calls, and what it does then. -/
structure Accounts (outFile : Path) (options : BundleOptions) (s : Situation) (past : List Moment) :
    Prop where
  /-- It counts the contents of which a bundle was made and written. -/
  bundles : s.writer.bundles = past.countP fun m => m.fate? outFile options = some .written
  /-- It tells an error exactly if the last content that was no bundle failed, with this error, and
  if it was not asked since then. -/
  error : ∀ e, s.writer.takeError.1 = some e ↔ ∃ earlier m later, past = earlier ++ m :: later ∧
    m.error? outFile options = some e ∧ ∀ m ∈ later, m.call.IsSilent
  /-- A content that is a bundle, or of which no bundle can be made, changes no file. -/
  untouched : ∀ text meanwhile, (isBundle text = true ∨
      ∃ e, bundle s.files options text = some (.error e)) →
    ∃ next, s.step (.content text meanwhile) = some next ∧ next.files = meanwhile s.files
  /-- Once a bundle was written the output holds it, and to be told it changes nothing at all. -/
  echo : ∀ text meanwhile, fate outFile options s.files text meanwhile = .written →
    ∃ next out, s.step (.content text meanwhile) = some next ∧ next.files.textOf outFile = .ok out ∧
      next.step (.content out id) = some next

section
variable {outFile : Path} {options : BundleOptions} {files : FileTree} {s : Situation}
  {calls : List Call}

theorem files_of_failed (h : Awaits outFile options s.writer) {text : Text}
    {meanwhile : FileTree → FileTree}
    (hfails : isBundle text = true ∨ ∃ e, bundle s.files options text = some (.error e)) :
    ∃ next, s.step (.content text meanwhile) = some next ∧ next.files = meanwhile s.files := by
  cases htext : isBundle text with
  | true =>
    rw [Situation.step, receive_of_passed h.idle htext]
    exact ⟨_, rfl, rfl⟩
  | false =>
    obtain ⟨e, hbundle⟩ := hfails.resolve_left (by simp [htext])
    rw [← h.options] at hbundle
    rw [Situation.step, receive_of_unbundled htext hbundle]
    exact ⟨_, rfl, rfl⟩

theorem step_echo (h : Awaits outFile options s.writer) {text : Text}
    {meanwhile : FileTree → FileTree}
    (hfate : fate outFile options s.files text meanwhile = .written) :
    ∃ next out, s.step (.content text meanwhile) = some next ∧ next.files.textOf outFile = .ok out ∧
      next.step (.content out id) = some next := by
  have htakes := takes_step text meanwhile h
  rw [hfate] at htakes
  generalize s.step (.content text meanwhile) = after at htakes ⊢
  cases htakes with
  | @writes out written _ hout hheld =>
    refine ⟨_, out, rfl, hheld, ?_⟩
    rw [Situation.step, receive_of_passed rfl hout]
    rfl

theorem awaits_run (hrun : (Situation.first outFile options files).run calls = some s) :
    Awaits outFile options s.writer := by
  induction calls using List.reverseRecOn generalizing s with
  | nil =>
    obtain rfl := Option.some.inj hrun
    exact ⟨rfl, rfl, rfl⟩
  | append_singleton calls call ih =>
    obtain ⟨m, hm, hstep⟩ := Situation.run_concat_eq_some_iff.mp hrun
    exact awaits_step (ih hm) hstep

theorem error_of_run (hrun : (Situation.first outFile options files).run calls = some s)
    (e : CommandError) : s.writer.lastError = some e ↔
      ∃ earlier m later, moments (Situation.first outFile options files) calls =
        earlier ++ m :: later ∧ m.error? outFile options = some e ∧
          ∀ m ∈ later, m.call.IsSilent := by
  induction calls using List.reverseRecOn generalizing s with
  | nil =>
    obtain rfl := Option.some.inj hrun
    simp [moments, Situation.first, Writer.start]
  | append_singleton calls call ih =>
    obtain ⟨m, hm, hstep⟩ := Situation.run_concat_eq_some_iff.mp hrun
    rw [moments_concat hm, Lists.exists_split_concat_iff, lastError_step (awaits_run hm) hstep, ih hm]

theorem bundles_of_run (hrun : (Situation.first outFile options files).run calls = some s) :
    s.writer.bundles =
      (moments (Situation.first outFile options files) calls).countP fun m =>
        m.fate? outFile options = some .written := by
  induction calls using List.reverseRecOn generalizing s with
  | nil =>
    obtain rfl := Option.some.inj hrun
    rfl
  | append_singleton calls call ih =>
    obtain ⟨m, hm, hstep⟩ := Situation.run_concat_eq_some_iff.mp hrun
    rw [moments_concat hm, List.countP_append, ← ih hm]
    exact bundles_step (awaits_run hm) hstep

theorem accounts_of_run (hrun : (Situation.first outFile options files).run calls = some s) :
    Accounts outFile options s (moments (Situation.first outFile options files) calls) where
  bundles := bundles_of_run hrun
  error := error_of_run hrun
  untouched _ _ hfails := files_of_failed (awaits_run hrun) hfails
  echo _ _ hfate := step_echo (awaits_run hrun) hfate

/-- A run has no end exactly if nothing comes of one of its contents. -/
theorem run_eq_none_iff (outFile : Path) (options : BundleOptions) (files : FileTree)
    (calls : List Call) :
    (Situation.first outFile options files).run calls = none ↔ ∃ call ∈ calls, call.Panics := by
  induction calls using List.reverseRecOn with
  | nil => simp [Situation.run]
  | append_singleton calls call ih =>
    rw [Situation.run_concat]
    simp only [List.mem_append, List.mem_singleton, or_and_right, exists_or, exists_eq_left, ← ih]
    cases hrun : (Situation.first outFile options files).run calls with
    | none => simp
    | some m => simp [step_eq_none_iff (awaits_run hrun)]

end

/-- **A writer keeps its accounts**, whatever it is told and asked and whatever others do to the files,
unless it is told a knotted text: then it does not come back. -/
theorem reports_of_run (outFile : Path) (options : BundleOptions) (files : FileTree)
    (calls : List Call) :
    ((Situation.first outFile options files).run calls = none ↔ ∃ call ∈ calls, call.Panics) ∧
    ∀ s, (Situation.first outFile options files).run calls = some s →
      Accounts outFile options s (moments (Situation.first outFile options files) calls) :=
  ⟨run_eq_none_iff outFile options files calls, fun _ => accounts_of_run⟩

/-- A header that does not end. -/
def openHeader : Text :=
  "define(\"m\", [".toList

/-- A new writer in an empty folder. -/
def newWriter : Situation :=
  .first "out.js".toList .default { entries := [], current := [] }

/-- A writer that was told a header without an end still tells why it was not bundled. One that is told
two knotted headers behind it cannot be asked for anything. -/
theorem reports_of_run_knot :
    (∃ s, newWriter.run [.content openHeader id] = some s ∧ s.writer.takeError.1 ≠ none ∧
      Accounts "out.js".toList .default s (moments newWriter [.content openHeader id])) ∧
    newWriter.run [.content openHeader id, .content Document.knot id, .takeError] = none := by
  obtain ⟨-, haccounts⟩ := reports_of_run "out.js".toList .default { entries := [], current := [] }
    [.content openHeader id]
  obtain ⟨hnone, -⟩ := reports_of_run "out.js".toList .default { entries := [], current := [] }
    [.content openHeader id, .content Document.knot id, .takeError]
  have herror : (newWriter.run [.content openHeader id]).any
      (fun s => s.writer.takeError.1.isSome) = true := by decide +kernel
  have hknot : (Document.read Document.knot).toOption.any
      (fun doc => (doc.remap? Document.knot).isNone) = true := by decide +kernel
  constructor
  · obtain ⟨s, hs, htold⟩ := (Option.any_eq_true _ _).mp herror
    exact ⟨s, hs, Option.isSome_iff_ne_none.mp htold, haccounts s hs⟩
  · obtain ⟨doc, hread, hremap⟩ := (Option.any_eq_true _ _).mp hknot
    have hplain : isBundle Document.knot = false := by decide +kernel
    exact hnone.mpr ⟨.content Document.knot id, by simp, hplain, Document.isKnotted_iff.mpr
      ⟨doc, Outcome.toOption_eq_some_iff.mp hread, Option.isNone_iff_eq_none.mp hremap⟩⟩

end AmdBundle.Writer
