import AmdBundle.Shell.Command
import AmdBundle.Shell.Format
import AmdBundle.Shell.Surroundings

/-!
# What words stand for

A word stands for any number of fields. Characters that were not quoted may be part of a pattern,
which stands for the names that match it.

* `State` : what a shell knows; `State.value?` : the value of a parameter;
* `Fields` : fields that are being put together; `matching` : the names that match a field;
* `sumValue?` : the value of an arithmetic expression.
-/

set_option autoImplicit false

namespace AmdBundle.Shell

/-! ## State -/

structure State where
  script : Text
  /-- The name of the shell or of its script. -/
  name : Text
  arguments : List Text
  settings : List (Text × Text)
  status : Nat
  stops : Bool
  /-- Is it only asked whether the command fails? -/
  isTested : Bool
  env : Surroundings

/-- The number of the shell among the running programs. -/
def ownNumber : Text :=
  "4242".toList

namespace State

def setting? (s : State) (name : Text) : Option Text :=
  (s.settings.find? fun item => item.1 = name).map Prod.snd

def set (s : State) (name value : Text) : State :=
  { s with settings := (name, value) :: s.settings.filter fun item => item.1 ≠ name }

/-- The value of a parameter, if it is set. -/
def value? (s : State) (name : Text) : Option Text :=
  match String.ofList name with
  | "#" => some (Text.ofNat s.arguments.length)
  | "?" => some (Text.ofNat s.status)
  | "$" => some ownNumber
  | "@" | "*" => if s.arguments.isEmpty then none else some (spaced s.arguments)
  | "-" => some []
  | "0" => some s.name
  | "PWD" => some (FileTree.pathOf s.env.folder)
  | _ =>
    match digitsValue? 10 name with
    | some n => s.arguments[n - 1]?
    | none => s.setting? name

end State

/-! ## Fields -/

/-- Characters, of which some may be part of a pattern. -/
abbrev Field := List (Char × Bool)

structure Fields where
  done : List Field
  current : Option Field

namespace Fields

def none : Fields :=
  ⟨[], .none⟩

def add (f : Fields) (chars : Field) : Fields :=
  { f with current := some (f.current.getD [] ++ chars) }

/-- The fields with the last one complete. -/
def cut (f : Fields) : Fields :=
  ⟨f.done ++ f.current.toList, .none⟩

/-- The fields with characters that stand for themselves. -/
def addQuoted (f : Fields) (text : Text) : Fields :=
  f.add (text.map fun c => (c, false))

/-- The fields with characters that may be part of a pattern. -/
def addPlain (f : Fields) (text : Text) : Fields :=
  f.add (text.map fun c => (c, true))

/-- The fields with a value, which blanks cut into several. -/
def addSplit (f : Fields) (text : Text) : Fields :=
  text.foldl
    (fun f c => if c = ' ' ∨ c = '\t' ∨ c = '\n' then f.cut else f.addPlain [c]) f

def addValue (f : Fields) (isQuoted : Bool) (text : Text) : Fields :=
  if isQuoted then f.addQuoted text else f.addSplit text

/-- The fields with several values, each in a field of its own. -/
def addEach (f : Fields) : List Text → Fields
  | [] => f
  | [text] => f.addQuoted text
  | text :: rest => (f.addQuoted text).cut.addEach rest

def all (f : Fields) : List Field :=
  f.cut.done

end Fields

def fieldText (field : Field) : Text :=
  field.map Prod.fst

/-! ## Patterns -/

def matchesField (field : Field) (text : Text) : Bool :=
  match field, text with
  | [], [] => true
  | [], _ :: _ => false
  | ('*', true) :: pattern, [] => matchesField pattern []
  | ('*', true) :: pattern, c :: rest =>
    matchesField pattern (c :: rest) || matchesField (('*', true) :: pattern) rest
  | ('?', true) :: pattern, _ :: rest => matchesField pattern rest
  | (d, _) :: pattern, c :: rest => d == c && matchesField pattern rest
  | _ :: _, [] => false
termination_by field.length + text.length

def isPattern (field : Field) : Bool :=
  field.any fun item => item.2 && (item.1 == '*' || item.1 == '?')

/-- The part of a field up to its last slash, and the rest. -/
def splitFolder (field : Field) : Field × Field :=
  let name := (field.reverse.takeWhile fun item => item.1 != '/').reverse
  (field.take (field.length - name.length), name)

/-- The texts that a field stands for: the paths that match it, or its own characters. -/
def matching (fs : FileTree) (field : Field) : List Text :=
  let (folder, pattern) := splitFolder field
  if isPattern pattern then
    let path := fieldText folder
    match fs.locate (if path.isEmpty then Path.here else path) with
    | .error _ => [fieldText field]
    | .ok loc =>
      let isHidden := fun name : Text => name.head? == some '.'
      let names := ((fs.listed loc).map Prod.fst).filter fun name =>
        matchesField pattern name &&
          (!isHidden name || (pattern.head?.map Prod.fst) == some '.')
      if names.isEmpty then [fieldText field]
      else (names.mergeSort Text.before).map fun name => path ++ name
  else [fieldText field]

/-- The first of some lengths at which a part of the text matches. -/
def firstMatch (pattern : Text) (part : Nat → Text) (lengths : List Nat) : Option Nat :=
  lengths.find? fun n => matchesField (pattern.map fun c => (c, true)) (part n)

/-- The value of a parameter as it is demanded. -/
def demanded (value : Option Text) : Demand → Text
  | .value => value.getD []
  | .length => Text.ofNat (value.getD []).length
  | .orElse strict text =>
    match value with
    | some v => if strict && v.isEmpty then text else v
    | none => text
  | .insteadOf strict text =>
    match value with
    | some v => if strict && v.isEmpty then [] else text
    | none => []
  | .withoutEnding greedy pattern =>
    let v := value.getD []
    let lengths := List.range (v.length + 1)
    let order := if greedy then lengths else lengths.reverse
    match firstMatch pattern (fun n => v.drop n) order with
    | some n => v.take n
    | none => v
  | .withoutBeginning greedy pattern =>
    let v := value.getD []
    let lengths := List.range (v.length + 1)
    let order := if greedy then lengths.reverse else lengths
    match firstMatch pattern (fun n => v.take n) order with
    | some n => v.drop n
    | none => v

/-! ## Sums -/

/-- The operators between two numbers, the weakest first. -/
def levels : List (List (String × (Int → Int → Int))) :=
  let truth := fun b : Bool => if b then (1 : Int) else 0
  [[("||", fun a b => truth (a != 0 || b != 0))],
    [("&&", fun a b => truth (a != 0 && b != 0))],
    [("==", fun a b => truth (a == b)), ("!=", fun a b => truth (a != b))],
    [("<=", fun a b => truth (a ≤ b)), (">=", fun a b => truth (b ≤ a)),
      ("<", fun a b => truth (a < b)), (">", fun a b => truth (b < a))],
    [("+", fun a b => a + b), ("-", fun a b => a - b)],
    [("*", fun a b => a * b), ("/", fun a b => Int.tdiv a b), ("%", fun a b => Int.tmod a b)]]

/-- The operator at the front of a text. -/
def operator? (operators : List (String × (Int → Int → Int))) (text : Text) :
    Option ((Int → Int → Int) × Text) :=
  operators.findSome? fun item => (Text.dropWord item.1.toList text).map fun rest => (item.2, rest)

def skipBlanks (text : Text) : Text :=
  text.dropWhile fun c => c == ' ' || c == '\t' || c == '\n'

mutual

/-- A sum of the operators of some levels; `fuel` bounds the depth of the reading. -/
def sumFrom (value : Text → Int) : Nat → List (List (String × (Int → Int → Int))) → Text →
    Option (Int × Text)
  | 0, _, _ => none
  | fuel + 1, [], text => factor value fuel (skipBlanks text)
  | fuel + 1, level :: stronger, text => do
    let (first, rest) ← sumFrom value fuel stronger text
    sumMore value fuel level stronger first (skipBlanks rest)

/-- The operators of a level behind a first value. -/
def sumMore (value : Text → Int) : Nat → List (String × (Int → Int → Int)) →
    List (List (String × (Int → Int → Int))) → Int → Text → Option (Int × Text)
  | 0, _, _, _, _ => none
  | fuel + 1, level, stronger, first, text =>
    match operator? level text with
    | none => some (first, text)
    | some (f, rest) => do
      let (second, rest) ← sumFrom value fuel stronger rest
      sumMore value fuel level stronger (f first second) (skipBlanks rest)

/-- A number, a variable, or something in brackets. -/
def factor (value : Text → Int) : Nat → Text → Option (Int × Text)
  | 0, _ => none
  | fuel + 1, text =>
    match text with
    | '(' :: rest => do
      let (inner, rest) ← sumFrom value fuel levels rest
      match skipBlanks rest with
      | ')' :: rest => some (inner, rest)
      | _ => none
    | '-' :: rest => (factor value fuel (skipBlanks rest)).map fun found => (-found.1, found.2)
    | '+' :: rest => factor value fuel (skipBlanks rest)
    | '!' :: rest =>
      (factor value fuel (skipBlanks rest)).map fun found => (if found.1 = 0 then 1 else 0, found.2)
    | '$' :: rest => factor value fuel rest
    | text =>
      let word := text.takeWhile fun c => c.isAlphanum || c == '_'
      if word.isEmpty then none
      else
        let rest := text.drop word.length
        match naturalOf? word with
        | some n => some (n, rest)
        | none => some (value word, rest)

end

def sumValue? (s : State) (expression : Text) : Option Int :=
  let value := fun name : Text => numberOf ((s.value? name).getD [])
  match sumFrom value (16 * expression.length + 32) levels expression with
  | some (n, rest) => if (skipBlanks rest).isEmpty then some n else none
  | none => none

end AmdBundle.Shell
