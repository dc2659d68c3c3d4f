import AmdBundle.Error.Bundle
import AmdBundle.Header
import AmdBundle.ResourceKey

/-!
# Bundles that were read

The headers of a bundle give its modules, the resources that the modules depend on, and the literals
that have to name the key of a resource from now on.

* `Pass` : what is filled while the literals of all headers are read, one after the other;
* `Document.read` : what the headers of a text say;
* `Document.remap?` : the text with the literals replaced.
-/

set_option autoImplicit false

namespace AmdBundle

structure Module where
  name : Text
  /-- What it depends on; a resource by its key. -/
  dependencies : List Text
  deriving DecidableEq, Repr

structure Resource where
  /-- Its key, which is the name of its module. -/
  name : Text
  /-- The path of the file, seen from the project folder. -/
  sourcePath : Text
  directive : Directive
  dependencies : List Text
  deriving DecidableEq, Repr

/-- A literal that has to be replaced by a key. -/
structure Rewrite where
  literal : Literal
  key : Text
  deriving DecidableEq, Repr

/-- The text of a key in the quotes of its literal. -/
def Rewrite.spelling (r : Rewrite) : Text :=
  r.literal.quote :: (r.key ++ [r.literal.quote])

/-- What the headers of a bundle say. -/
structure Document where
  /-- The resources, each once, in the order in which they first occur. -/
  resources : List Resource
  modules : List Module
  /-- Every key with the spellings of the tokens that mean it. -/
  remaps : List (Text × List Text)
  rewrites : List Rewrite
  deriving DecidableEq, Repr

inductive Define where
  | resource (r : Resource)
  | module (m : Module)
  deriving DecidableEq, Repr

/-- The resource that a key names, its path seen through `way`. -/
def Resource.ofKey (key way : Text) : Except BundleError Resource :=
  match Text.splitOnce '!' key with
  | none => .error (.unknownDirective key)
  | some (front, path) =>
    match Directive.ofName? front with
    | none => .error (.unknownDirective front)
    | some directive => .ok ⟨key, way ++ path, directive, ["exports".toList]⟩

/-! ## Reading -/

/-- What is filled while the literals of all headers are read. -/
structure Pass where
  modules : List Module
  /-- Every key with the spellings of the tokens that mean it. -/
  remaps : List (Text × List Text)
  /-- The keys of the resources, each once. -/
  keys : List Text
  rewrites : List Rewrite
  deriving DecidableEq, Repr

namespace Document

/-- The table with one more spelling of a key. -/
def addSpelling (key token : Text) : List (Text × List Text) → List (Text × List Text)
  | [] => [(key, [token])]
  | (k, tokens) :: rest =>
    if k = key then (k, if tokens.contains token then tokens else tokens ++ [token]) :: rest
    else (k, tokens) :: addSpelling key token rest

/-- The content of a literal without blanks around it. -/
def token (l : Literal) : Text :=
  Text.trim Text.isBlank l.content

/-- The key of a literal in the header of a module, if it is a resource. -/
def keyOf? (header : Header) (l : Literal) : Option Text :=
  ResourceKey.ofToken? header.name.content (token l)

end Document

namespace Pass
open Document (addSpelling keyOf? token)

def start : Pass :=
  ⟨[], [], [], []⟩

/-- The keys with one more, unless it is there. -/
def addKey (key : Text) (keys : List Text) : List Text :=
  if keys.contains key then keys else keys ++ [key]

/-- The pass and the dependencies of a module after one more literal of its header. -/
def literal (header : Header) (p : Pass × List Text) (l : Literal) : Pass × List Text :=
  match keyOf? header l with
  | some key =>
    ({ p.1 with
        remaps := addSpelling key (token l) p.1.remaps
        keys := addKey key p.1.keys
        rewrites := p.1.rewrites ++ [⟨l, key⟩] },
      p.2 ++ [key])
  | none => (p.1, p.2 ++ [token l])

/-- The pass after one more header. -/
def header (p : Pass) (h : Header) : Pass :=
  let (filled, dependencies) := h.dependencies.foldl (literal h) (p, [])
  { filled with modules := filled.modules ++ [⟨h.name.content, dependencies⟩] }

end Pass

namespace Document

/-- The way up from the last module. -/
def wayUp (modules : List Module) : Text :=
  match modules.getLast? with
  | some entry => ResourceKey.relocation entry.name
  | none => []

def ofHeaders (headers : List Header) : Except BundleError Document := do
  let pass := headers.foldl Pass.header .start
  let resources ← pass.keys.mapM fun key => Resource.ofKey key (wayUp pass.modules)
  .ok ⟨resources, pass.modules, pass.remaps, pass.rewrites⟩

/-- What the headers of a text say. -/
def read (code : Text) : Except BundleError Document :=
  match Header.scan code with
  | .error m => .error (.ofMalformed m)
  | .ok headers => ofHeaders headers

def defines (doc : Document) : List Define :=
  doc.resources.map .resource ++ doc.modules.map .module

def startModule? (doc : Document) : Option Module :=
  doc.modules.getLast?

/-! ## Replacing literals -/

/-- The rest of a text with literals replaced, of which `done` characters stand before the rest. A
literal that begins before the end of the one before it cannot be replaced. -/
def splice? (done : Nat) : List Rewrite → Text → Option Text
  | [], text => some text
  | r :: more, text =>
    if r.literal.start < done then none
    else
      let (kept, tail) := text.splitAt (r.literal.start - done)
      (splice? r.literal.stop more (tail.drop (r.literal.stop - r.literal.start))).map fun after =>
        kept ++ r.spelling ++ after

/-- The text of the document with its literals replaced. -/
def remap? (doc : Document) (code : Text) : Option Text :=
  splice? 0 doc.rewrites code

end Document

end AmdBundle
