import AmdBundle.Decode.Choice
import AmdBundle.Text.Classes

/-!
# Targets

The level of the script language that a bundle may use. A target decides what the loader of the
bundle is written with.

* `Target.ofName?`, `Target.named` : by name, in any letter case and with blanks around it;
* `Target.ofName` : the same, an unknown name being `es3`;
* `Capabilities` : the features that a target has.
-/

set_option autoImplicit false

namespace AmdBundle

inductive Target where
  | es3
  | es5
  | es6
  | es2015
  | es2016
  | es2017
  | es2018
  | esnext
  deriving DecidableEq, Repr

structure Capabilities where
  defineProperty : Bool
  blockScoping : Bool
  arrowFunctions : Bool
  spreadArguments : Bool
  /-- A catch clause that does not name the error. -/
  optionalCatchBinding : Bool
  deriving DecidableEq, Repr

namespace Target

def all : List Target :=
  [.es3, .es5, .es6, .es2015, .es2016, .es2017, .es2018, .esnext]

def name : Target → String
  | es3 => "es3"
  | es5 => "es5"
  | es6 => "es6"
  | es2015 => "es2015"
  | es2016 => "es2016"
  | es2017 => "es2017"
  | es2018 => "es2018"
  | esnext => "esnext"

def choices : Choices Target :=
  ⟨"EsTarget", all, name⟩

/-- The target of that name, in any letter case and with blanks around it. -/
def ofName? (spelling : Text) : Option Target :=
  choices.find? (Text.asciiLower (Text.trim Text.isBlank spelling))

/-- The target of that name, `es3` if there is none. -/
def ofName (spelling : Text) : Target :=
  (ofName? spelling).getD .es3

/-- The target of that name, or what to say if there is none. -/
def named (spelling : Text) : Except String Target :=
  match ofName? spelling with
  | some target => .ok target
  | none =>
    .error ("unknown ES target '" ++ String.ofList spelling ++ "' (expected one of: " ++
      ", ".intercalate choices.names ++ ")")

/-- What the loader may be written with. -/
def capabilities : Target → Capabilities
  | es3 => ⟨false, false, false, false, false⟩
  | es5 => ⟨true, false, false, false, false⟩
  | esnext => ⟨true, true, true, true, true⟩
  | _ => ⟨true, true, true, true, false⟩

def decoder : Decoder Target :=
  .choice choices

end Target

end AmdBundle
