import AmdBundle.CommandLine.Basic

/-!
# What is said about a command line

* `usage` : how the program is called; `UsageError.message`, `UsageError.exitCode` : what is said about
  a command line that says nothing, and the code with which the program ends.
-/

set_option autoImplicit false

namespace AmdBundle

def usage : String :=
  "\n".intercalate
    ["Bundle TypeScript AMD output into one self-contained script", "",
      "Usage: amdpack [OPTIONS] build [OPTIONS] [INPUT]", "",
      "  -v, --verbose                          Say more",
      "  -q, --quiet                            Say errors only",
      "      --no-color                         Use no colours",
      "  -o, --out-file <FILE>                  Where the bundle goes",
      "  -t, --target <TARGET>                  What the compiler and the loader may use",
      "      --export-as <NAME>                 Where the exports of the entry module go",
      "      --import-as <GLOBAL=MODULE>        A name of the host that is a module",
      "      --import-as-default <GLOBAL=MODULE>  The same, as a default export",
      "      --entry-point <MODULE>             The module to start with",
      "  -w, --watch                            Go on and bundle every change",
      "      --project-root <DIR>               Where the files of resources are seen from",
      "  -c, --config <FILE>                    The settings file",
      "      --compiler <PROGRAM>               The program that compiles"]

namespace UsageError

def message : UsageError → String
  | help => usage
  | version => "amdpack 0.4.1"
  | empty => usage
  | noCommand => usage
  | unknownCommand => "error: there is no such command"
  | unknownArgument => "error: unexpected argument"
  | conflict => "error: an argument is given twice, or with one that excludes it"
  | noValue => "error: an argument needs a value"
  | tooManyValues => "error: a switch takes no value"
  | refused reason => "error: " ++ reason

/-- The code with which the program ends. -/
def exitCode : UsageError → Nat
  | help => 0
  | version => 0
  | _ => 2

end UsageError

end AmdBundle
