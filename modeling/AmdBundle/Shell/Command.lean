import AmdBundle.Text.Basic

/-!
# Commands of a shell

A small shell language, in which a stand-in for a compiler can be written. Words are kept in pieces,
since what they stand for is known only when the command is run.

* `Piece`, `Word` : words before they are expanded;
* `Redirect` : where a command reads from and prints to;
* `Command` : simple commands and what joins them.
-/

set_option autoImplicit false

namespace AmdBundle.Shell

inductive Demand where
  | value
  | length
  /-- Its value, or a text if it is not set; one that is empty counts as not set if `strict`. -/
  | orElse (strict : Bool) (text : Text)
  | insteadOf (strict : Bool) (text : Text)
  /-- Its value without an ending of a pattern, the longest one if `greedy`. -/
  | withoutEnding (greedy : Bool) (pattern : Text)
  /-- Its value without a beginning of a pattern. -/
  | withoutBeginning (greedy : Bool) (pattern : Text)
  deriving DecidableEq, Repr

inductive Piece where
  | plain (text : Text)
  | quoted (text : Text)
  | parameter (name : Text) (demand : Demand) (isQuoted : Bool)
  | output (script : Text) (isQuoted : Bool)
  | sum (expression : Text) (isQuoted : Bool)
  deriving DecidableEq, Repr

abbrev Word := List Piece

inductive Redirect.Kind where
  | read
  | here
  /-- Print into a file, which is emptied first. -/
  | write
  | append
  | copy
  deriving DecidableEq, Repr

structure Redirect where
  /-- The number that is redirected: 0 to read, 1 to print, 2 to print errors. -/
  number : Nat
  kind : Redirect.Kind
  word : Word
  deriving DecidableEq, Repr

inductive Command where
  | nothing
  /-- Settings of variables and the words of a command; `left` characters of the script were unread
  when it began. -/
  | simple (left : Nat) (settings : List (Text × Word)) (words : List Word)
      (redirects : List Redirect)
  | sequence (first second : Command)
  | both (first second : Command)
  | either (first second : Command)
  | negation (command : Command)
  | pipe (first second : Command)
  | background (command : Command)
  | subshell (command : Command) (redirects : List Redirect)
  | group (command : Command) (redirects : List Redirect)
  /-- One of two commands, by whether the first succeeds. -/
  | choice (condition yes no : Command)
  /-- Again and again while the first succeeds, or until it does. -/
  | loop (untilSuccess : Bool) (condition body : Command)
  /-- Once for each field, to which a variable is set. -/
  | each (name : Text) (words : List Word) (body : Command)
  deriving Repr

structure Fault where
  message : String
  /-- The characters that were unread when it showed. -/
  left : Nat
  deriving DecidableEq, Repr

/-- A reader takes something from the front of a script. -/
abbrev Reader (α : Type) := Text → Except Fault (α × Text)

end AmdBundle.Shell
