import AmdBundle.Decode.Record
import AmdBundle.RelaxedJson.Reader

/-!
# Project files

A project file is relaxed JSON that sets options of the compiler and lists sources. Whatever else it
holds is ignored.

* `ProjectFile` : the options and sources that matter here; `ProjectFile.parse` : how it is read;
* `ProjectFile.lastSource?` : the source that gives the output its name.
-/

set_option autoImplicit false

namespace AmdBundle

/-- The options of a project that say what is emitted, and where. -/
structure ProjectOptions where
  target : Option Text
  outFile : Option Text
  outDir : Option Text
  deriving DecidableEq, Repr

structure ProjectFile where
  options : ProjectOptions
  files : List Text
  deriving DecidableEq, Repr

def ProjectOptions.shape : Shape ProjectOptions ProjectOptions where
  title := "TsCompilerOptions"
  fields :=
    [.of "target" (.optional .text) fun target o => { o with target },
      .of "outFile" (.optional .text) fun outFile o => { o with outFile },
      .of "outDir" (.optional .text) fun outDir o => { o with outDir }]
  start := ⟨none, none, none⟩
  isClosed := false
  isFull := false
  finish := .ok

namespace ProjectFile

def empty : ProjectFile :=
  ⟨ProjectOptions.shape.start, []⟩

def shape : Shape ProjectFile ProjectFile where
  title := "TsConfig"
  fields :=
    [.of "compilerOptions" (.record ProjectOptions.shape) fun options p => { p with options },
      .of "files" (.list .text) fun files p => { p with files }]
  start := empty
  isClosed := false
  isFull := false
  finish := .ok

/-- The project of a text, or what is wrong with the text. -/
def parse (text : Text) : Except String ProjectFile :=
  match RelaxedJson.parse text with
  | .error fault => .error (fault.message text)
  | .ok none => .ok empty
  | .ok (some v) => ((Decoder.record shape).ofJson v).mapError Json.mismatchText

/-- Is the file a source, and not one of declarations only? -/
def isSource (file : Text) : Bool :=
  (Text.endsWith ".ts".toList file || Text.endsWith ".tsx".toList file) &&
    !Text.endsWith ".d.ts".toList file

/-- The last file, if it is a source. -/
def lastSource? (p : ProjectFile) : Option Path :=
  p.files.getLast?.filter isSource

end ProjectFile

end AmdBundle
