import AmdBundle.Error.Bundle
import AmdBundle.Error.System

/-!
# Why a command fails

* `SettingsError`, `CompileError` : faults of the settings and of the compiler;
* `CommandError` : every fault, with `message` and `exitCode`;
* `withPath`, `withHint`, `withContext` : what is added to a fault on its way up;
* `report` : the last words of a command that failed.
-/

set_option autoImplicit false

namespace AmdBundle

def hinted (text hint : String) : String :=
  text ++ "\n\nHint: " ++ hint

inductive SettingsError where
  /-- The settings file that was asked for is not there. -/
  | notFound (path : Path)
  | missingField (field hint : String)
  | invalidValue (field value hint : String)
  deriving DecidableEq, Repr

/-- The text of a fault of the settings. -/
def SettingsError.message : SettingsError → String
  | notFound path =>
    hinted ("Config file not found: " ++ String.ofList path)
      "Create an amdpack.config.json file or fix the --config path"
  | missingField field hint => hinted ("Missing required field: " ++ field) hint
  | invalidValue field value hint =>
    hinted ("Invalid value for '" ++ field ++ "': " ++ value) hint

inductive CompileError where
  /-- It ends with another code than 0. -/
  | exit (code : Int)
  | spawn (cause : SystemError)
  | watch (reason : String)
  deriving DecidableEq, Repr

namespace CompileError

/-- The text of a fault of the compiler. -/
def message : CompileError → String
  | exit code => "compiler exited with code " ++ toString code
  | spawn cause => "unable to run compiler: " ++ cause.message
  | watch reason => "unable to watch output file: " ++ reason

/-- The code with which the command ends. -/
def exitCode : CompileError → Int
  | exit code => code
  | _ => 1

end CompileError

inductive CommandError where
  | settings (e : SettingsError)
  | compile (e : CompileError)
  | bundle (e : BundleError)
  | invalidArgument (text : String)
  | fileNotFound (path : Path)
  | system (e : SystemError)
  | other (message : String)
  deriving DecidableEq, Repr

/-- The last words of a command: a text, and what may help. -/
structure Report where
  text : String
  help : Option String
  deriving DecidableEq, Repr

namespace CommandError

def message : CommandError → String
  | settings e => "Configuration error: " ++ e.message
  | compile e => "Compile error: " ++ e.message
  | bundle e => "Bundle error: " ++ e.message
  | invalidArgument text => "Invalid argument: " ++ text
  | fileNotFound path => "File not found: " ++ String.ofList path
  | system e => "I/O error: " ++ e.message
  | other message => message

/-- The code with which the command ends: that of the compiler if the compiler failed, else 1. -/
def exitCode : CommandError → Int
  | compile e => e.exitCode
  | _ => 1

/-- The error about a path: what was not found is that path. -/
def withPath (path : Path) : CommandError → CommandError
  | system e => if e.kind = .notFound then fileNotFound path else system e
  | e => e

/-- The error with a hint behind it. -/
def withHint (hint : String) (e : CommandError) : CommandError :=
  other (hinted e.message hint)

/-- The error with a text in front of it. -/
def withContext (text : String) (e : CommandError) : CommandError :=
  other (text ++ ": " ++ e.message)

/-- The last words of a command that failed. -/
def report : CommandError → Report
  | compile (.exit code) =>
    ⟨"TypeScript compiler exited with code " ++ toString code,
      some "Fix the compiler diagnostics above and run the build again"⟩
  | compile (.spawn cause) =>
    ⟨"Unable to start the TypeScript compiler: " ++ cause.message,
      some ("Install TypeScript (npm install -g typescript) or set 'compiler' in " ++
        "amdpack.config.json")⟩
  | bundle e => ⟨"Bundler error: " ++ e.message, none⟩
  | e => ⟨e.message, none⟩

end CommandError

end AmdBundle
