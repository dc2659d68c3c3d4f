import AmdBundle.Text.Classes
import AmdBundle.Text.Basic

/-!
# Which messages are logged

A filter lists rules, each a level for a target or for everything else.

* `Level` : how much is logged; `Rule` : a level for a target;
* `parse?` : a filter as it is written, rules with commas between them;
* `choose` : the filter for the switches of a command line and a filter from the environment.
-/

set_option autoImplicit false

namespace AmdBundle.Log

inductive Level where
  | off
  | error
  | warn
  | info
  | debug
  | trace
  deriving DecidableEq, Repr

namespace Level

def all : List (Level × Char) :=
  [(off, '0'), (error, '1'), (warn, '2'), (info, '3'), (debug, '4'), (trace, '5')]

def name : Level → String
  | off => "off"
  | error => "error"
  | warn => "warn"
  | info => "info"
  | debug => "debug"
  | trace => "trace"

/-- The level of a name in any letter case, or of a digit. -/
def ofName? (text : Text) : Option Level :=
  (all.find? fun l => l.1.name.toList == Text.asciiLower text || [l.2] == text).map Prod.fst

end Level

/-- A level for a target, or for all targets without a rule. -/
structure Rule where
  target : Option Text
  level : Level
  deriving DecidableEq, Repr

def Rule.text (r : Rule) : Text :=
  match r.target with
  | some target => target ++ '=' :: r.level.name.toList
  | none => r.level.name.toList

def isTarget (text : Text) : Bool :=
  !text.isEmpty && text.all fun c => Text.isWordChar c || c == ':' || c == '-'

/-- A rule about a target, of which everything is logged if it gives no level. -/
def targetRule? (target level : Text) : Option Rule :=
  if !isTarget target then none
  else if level.isEmpty then some ⟨some target, .trace⟩
  else (Level.ofName? level).map fun l => ⟨some target, l⟩

def Rule.parse? (text : Text) : Option Rule :=
  match Level.ofName? text with
  | some l => some ⟨none, l⟩
  | none =>
    match Text.splitOnce '=' text with
    | some (target, level) => targetRule? target level
    | none => targetRule? text []

/-- The rules with one more, in the place of a rule about the same target. -/
def addRule (r : Rule) : List Rule → List Rule
  | [] => [r]
  | old :: rest => if old.target = r.target then r :: rest else old :: addRule r rest

/-- The rules of a filter, unless one of them is malformed. -/
def parse? (text : Text) : Option (List Rule) :=
  (((text.splitOn ',').filter fun part => !part.isEmpty).mapM Rule.parse?).map fun rules =>
    rules.foldl (fun all r => addRule r all) []

def ownTargets : List String :=
  ["amdpack", "amdpack_bundler", "amdpack_cli"]

/-- One level for everything that this program logs. -/
def own (level : Level) : List Rule :=
  ownTargets.map fun target => ⟨some target.toList, level⟩

/-- The filter: by the switches, else by the environment, else the usual one. -/
def choose (verbose quiet : Bool) (setting : Option Text) : List Rule :=
  if verbose then own .debug
  else if quiet then own .error
  else (setting.bind parse?).getD (own .info)

def filterText (rules : List Rule) : Text :=
  [','].intercalate (rules.map Rule.text)

end AmdBundle.Log
