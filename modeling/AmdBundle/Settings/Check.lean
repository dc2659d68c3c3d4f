import AmdBundle.Error.Command
import AmdBundle.Settings.Basic
import AmdBundle.Settings.Names

/-!
# Settings that make sense

* `Settings.check` : the first setting that makes no sense, in a fixed order.
-/

set_option autoImplicit false

namespace AmdBundle.Settings

/-- The longest time for which the output may have to be quiet. -/
def maxDebounceMs : Nat := 10000

/-- What is wrong unless a condition holds. -/
def require (condition : Bool) (e : SettingsError) : Except SettingsError Unit :=
  if condition then .ok () else .error e

/-- A name under which exports may go. -/
def checkExportAs (name : Text) : Except SettingsError Unit :=
  require (isExportName name)
    (.invalidValue "exportAs" (String.ofList name) "Must be 'commonjs' or a JavaScript identifier")

def checkImport (i : ImportAs) : Except SettingsError Unit :=
  require (isImportName i.outer && isImportName i.inner)
    (.invalidValue "importAs" (String.ofList (i.outer ++ '=' :: i.inner))
      "Use <global>=<module> with letters, digits, '_', '$' or '-'")

def isNamed (text : Text) : Bool :=
  !text.all Text.isBlank

def check (s : Settings) : Except SettingsError Unit := do
  require s.input.isSome
    (.missingField "input" "Pass an input file, e.g. 'amdpack build src/index.ts'")
  s.exportAs.toList.forM checkExportAs
  s.importAs.forM checkImport
  require (s.entryPoint.all isNamed)
    (.invalidValue "entryPoint" "" "Entry point must name a module")
  require (isNamed s.compiler)
    (.invalidValue "compiler" "" "Set the compiler program, e.g. 'tsc'")
  require (0 < s.debounceMs && s.debounceMs ≤ maxDebounceMs)
    (.invalidValue "debounceMs" (toString s.debounceMs)
      ("Must be between 1 and " ++ toString maxDebounceMs))
  require (0 < s.settleTickMs)
    (.invalidValue "settleTickMs" "0" "Must be greater than 0")
  require (s.settleTickMs ≤ s.settleTimeoutMs)
    (.invalidValue "settleTimeoutMs" (toString s.settleTimeoutMs)
      ("Must be at least settleTickMs (" ++ toString s.settleTickMs ++ ")"))

end AmdBundle.Settings
