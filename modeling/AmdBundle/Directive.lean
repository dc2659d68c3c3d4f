import AmdBundle.Text.Basic

/-!
# Resource directives

A dependency such as `text!./notice.txt` asks for a file to become a module. The directive in front
of the exclamation mark says in which form.

* `Directive.name`, `Directive.ofName?` : a directive and its spelling.
-/

set_option autoImplicit false

namespace AmdBundle

/-- In which form a file becomes a module. -/
inductive Directive where
  | text
  | json
  /-- Its bytes in base64, as a string. -/
  | base64
  | buffer
  /-- A stylesheet with its imports in place, as a string. -/
  | css
  /-- Every file below a folder, in base64, by relative path. -/
  | directory
  deriving DecidableEq, Repr

namespace Directive

def all : List Directive :=
  [.text, .json, .base64, .buffer, .css, .directory]

def name : Directive → String
  | text => "text"
  | json => "json"
  | base64 => "base64"
  | buffer => "buffer"
  | css => "css"
  | directory => "directory"

def ofName? (spelling : Text) : Option Directive :=
  all.find? fun d => d.name.toList = spelling

end Directive

end AmdBundle
