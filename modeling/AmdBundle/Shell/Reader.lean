import AmdBundle.Shell.Command
import AmdBundle.Text.Classes

/-!
# Reading a script

* `readWord` : a word in its pieces; `readRedirect` : a redirection;
* `readList` : commands one after the other, up to what ends them;
* `readLine?` : the commands of the next line of a script.
-/

set_option autoImplicit false

namespace AmdBundle.Shell

/-! ## Characters -/

def isGap (c : Char) : Bool :=
  c == ' ' || c == '\t'

def isDelimiter (c : Char) : Bool :=
  isGap c || "\n;&|()<>".toList.contains c

/-- A character that a name begins with. -/
def isNameStart (c : Char) : Bool :=
  c.isAlpha || c == '_'

def isNamePart (c : Char) : Bool :=
  c.isAlphanum || c == '_'

def isSpecial (c : Char) : Bool :=
  c.isDigit || "@*#?$!-".toList.contains c

/-- The quote of an old-fashioned script within a word. -/
def backQuote : Char :=
  '\x60'

/-- A fault at the front of a text. -/
def faultAt {α : Type} (text : Text) (message : String) : Except Fault α :=
  .error ⟨message, text.length⟩

/-- The fault of an end that comes too early. -/
def earlyEnd {α : Type} : Except Fault α :=
  .error ⟨"end of file unexpected", 0⟩

/-- The text without gaps, joined lines and comments in front. -/
def skipGaps : Text → Text
  | [] => []
  | '\\' :: '\n' :: rest => skipGaps rest
  | '#' :: rest => rest.dropWhile fun c => c != '\n'
  | c :: rest => if isGap c then skipGaps rest else c :: rest

/-- The text without gaps, line ends and comments in front; `fuel` is at least its length. -/
def skipLines : Nat → Text → Text
  | 0, text => text
  | fuel + 1, text =>
    match skipGaps text with
    | '\n' :: rest => skipLines fuel rest
    | rest => rest

/-! ## Pieces of words -/

/-- The text up to `close`, where quotes and brackets `open'` hide what is in them; `depth` brackets
are open. -/
def untilClose (open' close : Char) : Nat → Text → Except Fault (Text × Text)
  | _, [] => earlyEnd
  | depth, '\\' :: c :: rest => do
    let (inner, rest) ← untilClose open' close depth rest
    .ok ('\\' :: c :: inner, rest)
  | depth, c :: rest =>
    if c = close then
      match depth with
      | 0 => .ok ([], rest)
      | depth + 1 => do
        let (inner, rest) ← untilClose open' close depth rest
        .ok (c :: inner, rest)
    else do
      let (inner, rest) ← untilClose open' close (if c = open' then depth + 1 else depth) rest
      .ok (c :: inner, rest)

/-- What follows the name of a parameter in braces. -/
def readDemand : Text → Option Demand
  | [] => some .value
  | ':' :: '-' :: text => some (.orElse true text)
  | '-' :: text => some (.orElse false text)
  | ':' :: '+' :: text => some (.insteadOf true text)
  | '+' :: text => some (.insteadOf false text)
  | '%' :: '%' :: text => some (.withoutEnding true text)
  | '%' :: text => some (.withoutEnding false text)
  | '#' :: '#' :: text => some (.withoutBeginning true text)
  | '#' :: text => some (.withoutBeginning false text)
  | _ => none

/-- The name at the front of a text. -/
def splitName (text : Text) : Text × Text :=
  match text with
  | c :: rest => if isSpecial c && !c.isDigit then ([c], rest) else (text.takeWhile isNamePart, text.dropWhile isNamePart)
  | [] => ([], [])

def bracedParameter (isQuoted : Bool) (inner rest : Text) : Except Fault Piece :=
  match inner with
  | '#' :: c :: more => .ok (.parameter (c :: more) .length isQuoted)
  | _ =>
    let (name, more) := splitName inner
    match readDemand more with
    | some demand => if name.isEmpty then faultAt rest "Bad substitution" else .ok (.parameter name demand isQuoted)
    | none => faultAt rest "Bad substitution"

/-- What a dollar sign before `text` begins. -/
def readDollar (isQuoted : Bool) (text : Text) : Except Fault (Piece × Text) :=
  match text with
  | '(' :: '(' :: rest => do
    let (inner, rest) ← untilClose '(' ')' 0 rest
    match rest with
    | ')' :: rest => .ok (.sum inner isQuoted, rest)
    | _ => faultAt rest "Missing '))'"
  | '(' :: rest => do
    let (inner, rest) ← untilClose '(' ')' 0 rest
    .ok (.output inner isQuoted, rest)
  | '\x7b' :: rest => do
    let (inner, rest) ← untilClose '\x7b' '\x7d' 0 rest
    .ok (← bracedParameter isQuoted inner rest, rest)
  | c :: rest =>
    if isSpecial c then .ok (.parameter [c] .value isQuoted, rest)
    else if isNameStart c then
      .ok (.parameter (text.takeWhile isNamePart) .value isQuoted, text.dropWhile isNamePart)
    else .ok (.quoted ['$'], text)
  | [] => .ok (.quoted ['$'], [])

/-- The fault of a quote that is not closed. -/
def openQuote {α : Type} : Except Fault α :=
  .error ⟨"Unterminated quoted string", 0⟩

/-- A character that a backslash keeps between double quotes. -/
def isKept (c : Char) : Bool :=
  c == '"' || c == '\\' || c == '$' || c == backQuote

/-- The pieces between double quotes, or of a whole text if `isWhole`; `fuel` is more than its
length. -/
def quotedPieces (isWhole : Bool) : Nat → Text → Except Fault (Word × Text)
  | 0, _ => openQuote
  | _ + 1, [] => if isWhole then .ok ([], []) else openQuote
  | fuel + 1, c :: rest =>
    if c = '"' ∧ !isWhole then .ok ([], rest)
    else if c = '\\' then
      match rest with
      | '\n' :: rest => quotedPieces isWhole fuel rest
      | d :: rest => do
        let (more, rest) ← quotedPieces isWhole fuel rest
        .ok (.quoted (if isKept d then [d] else ['\\', d]) :: more, rest)
      | [] => if isWhole then .ok ([.quoted ['\\']], []) else openQuote
    else if c = '$' then do
      let (piece, rest) ← readDollar true rest
      let (more, rest) ← quotedPieces isWhole fuel rest
      .ok (piece :: more, rest)
    else if c = backQuote then do
      let (inner, rest) ← untilClose backQuote backQuote 0 rest
      let (more, rest) ← quotedPieces isWhole fuel rest
      .ok (.output inner true :: more, rest)
    else do
      let (more, rest) ← quotedPieces isWhole fuel rest
      .ok (.quoted [c] :: more, rest)

/-- A word in its pieces; `fuel` is more than the length of the text. -/
def readPieces : Nat → Text → Except Fault (Word × Text)
  | 0, text => .ok ([], text)
  | _ + 1, [] => .ok ([], [])
  | fuel + 1, c :: rest =>
    if isDelimiter c then .ok ([], c :: rest)
    else if c = '\'' then
      match Text.splitOnce '\'' rest with
      | none => openQuote
      | some (inner, rest) => do
        let (more, rest) ← readPieces fuel rest
        .ok (.quoted inner :: more, rest)
    else if c = '"' then do
      let (inner, rest) ← quotedPieces false (rest.length + 1) rest
      let (more, rest) ← readPieces fuel rest
      let all := [Piece.parameter ['@'] .value true]
      .ok ((if inner = all then all else .quoted [] :: inner) ++ more, rest)
    else if c = '\\' then
      match rest with
      | '\n' :: rest => readPieces fuel rest
      | d :: rest => do
        let (more, rest) ← readPieces fuel rest
        .ok (.quoted [d] :: more, rest)
      | [] => .ok ([.quoted ['\\']], [])
    else if c = '$' then do
      let (piece, rest) ← readDollar false rest
      let (more, rest) ← readPieces fuel rest
      .ok (piece :: more, rest)
    else if c = backQuote then do
      let (inner, rest) ← untilClose backQuote backQuote 0 rest
      let (more, rest) ← readPieces fuel rest
      .ok (.output inner false :: more, rest)
    else do
      let (more, rest) ← readPieces fuel rest
      .ok (.plain [c] :: more, rest)

def readWord : Reader Word := fun text =>
  readPieces (text.length + 1) text

/-! ## Words as they stand -/

/-- The characters of a word that is not to be expanded. -/
def literalText : Word → Text
  | [] => []
  | .plain t :: rest => t ++ literalText rest
  | .quoted t :: rest => t ++ literalText rest
  | _ :: rest => literalText rest

/-- Is some of the word between quotes? -/
def isQuotedWord (word : Word) : Bool :=
  word.any fun
    | .quoted _ => true
    | _ => false

/-- The word of the shell's own with which a text begins, if it may be one. -/
def bareWord (text : Text) : Text :=
  text.takeWhile fun c => !isDelimiter c

/-- Does the text begin with that word? -/
def beginsWith (word : String) (text : Text) : Bool :=
  bareWord text == word.toList

/-- The text without that word in front. -/
def dropBare (word : String) (text : Text) : Text :=
  text.drop word.length

/-! ## Redirections -/

/-- The lines up to the one that is `stop`, and the text behind it; tabs in front of a line are
dropped if `noTabs`. -/
def hereLines (stop : Text) (noTabs : Bool) : List Text → Text × List Text
  | [] => ([], [])
  | line :: rest =>
    let line := if noTabs then line.dropWhile fun c => c == '\t' else line
    if line = stop then ([], rest)
    else
      let (more, rest) := hereLines stop noTabs rest
      (line ++ '\n' :: more, rest)

/-- A text whose lines from the next one on, up to one that is `stop`, are taken out: those lines, and
what is left. -/
def takeHere (stop : Text) (noTabs : Bool) (text : Text) : Text × Text :=
  match Text.splitOnce '\n' text with
  | none => ([], text)
  | some (line, below) =>
    let (inner, rest) := hereLines stop noTabs (below.splitOn '\n')
    (inner, line ++ '\n' :: ['\n'].intercalate rest)

/-- The word behind the mark of a redirection. -/
def redirectWord (number : Nat) (kind : Redirect.Kind) (text : Text) :
    Except Fault (Redirect × Text) := do
  let (word, rest) ← readWord (skipGaps text)
  if word.isEmpty then faultAt rest "redirection unexpected"
  else .ok (⟨number, kind, word⟩, rest)

/-- Text to be read that stands in the script. -/
def hereText (number : Nat) (noTabs : Bool) (text : Text) : Except Fault (Redirect × Text) := do
  let (stop, rest) ← readWord (skipGaps text)
  let (inner, rest) := takeHere (literalText stop) noTabs rest
  if isQuotedWord stop then .ok (⟨number, .here, [.quoted inner]⟩, rest)
  else
    let (word, _) ← quotedPieces true (inner.length + 1) inner
    .ok (⟨number, .here, word⟩, rest)

/-- The redirection whose mark begins a text, if there is one. -/
def readMark? (number : Option Nat) : Text → Option (Except Fault (Redirect × Text))
  | '<' :: '<' :: '-' :: rest => some (hereText (number.getD 0) true rest)
  | '<' :: '<' :: rest => some (hereText (number.getD 0) false rest)
  | '<' :: rest => some (redirectWord (number.getD 0) .read rest)
  | '>' :: '>' :: rest => some (redirectWord (number.getD 1) .append rest)
  | '>' :: '&' :: rest => some (redirectWord (number.getD 1) .copy rest)
  | '>' :: '|' :: rest => some (redirectWord (number.getD 1) .write rest)
  | '>' :: rest => some (redirectWord (number.getD 1) .write rest)
  | _ => none

/-- The redirection at the front of a text, if there is one. -/
def readRedirect? (text : Text) : Option (Except Fault (Redirect × Text)) :=
  match text with
  | c :: rest => if c.isDigit then
      match rest with
      | '<' :: _ | '>' :: _ => readMark? (some (c.toNat - 48)) rest
      | _ => none
    else readMark? none text
  | [] => none

/-- All redirections at the front of a text; `fuel` is more than its length. -/
def readRedirects : Nat → Text → Except Fault (List Redirect × Text)
  | 0, text => .ok ([], text)
  | fuel + 1, text =>
    match readRedirect? (skipGaps text) with
    | none => .ok ([], text)
    | some found => do
      let (r, rest) ← found
      let (more, rest) ← readRedirects fuel rest
      .ok (r :: more, rest)

/-! ## Simple commands -/

/-- The setting of a variable with which a text begins. -/
def readSetting? (text : Text) : Option (Text × Text) :=
  match text.takeWhile isNamePart, text.dropWhile isNamePart with
  | c :: name, '=' :: rest => if isNameStart c then some (c :: name, rest) else none
  | _, _ => none

structure Parts where
  settings : List (Text × Word)
  words : List Word
  redirects : List Redirect

/-- The parts of a simple command that follow those before; `fuel` is more than the length of the
text. -/
def readParts : Nat → Parts → Text → Except Fault (Parts × Text)
  | 0, p, text => .ok (p, text)
  | fuel + 1, p, text =>
    let text := skipGaps text
    match readRedirect? text with
    | some found => do
      let (r, rest) ← found
      readParts fuel { p with redirects := p.redirects ++ [r] } rest
    | none =>
      match text with
      | [] => .ok (p, [])
      | c :: _ =>
        if isDelimiter c then .ok (p, text)
        else
          match if p.words.isEmpty then readSetting? text else none with
          | some (name, rest) => do
            let (word, rest) ← readWord rest
            readParts fuel { p with settings := p.settings ++ [(name, word)] } rest
          | none => do
            let (word, rest) ← readWord text
            readParts fuel { p with words := p.words ++ [word] } rest

/-- The fault of a text that begins no command. -/
def unexpected {α : Type} (text : Text) : Except Fault α :=
  match text with
  | [] => earlyEnd
  | '\n' :: _ => faultAt text "newline unexpected"
  | c :: d :: _ =>
    let shown := if isDelimiter c then
        if c = d ∧ (c = ';' ∨ c = '&' ∨ c = '|') then [c, d] else [c]
      else bareWord text
    faultAt text ("\"" ++ String.ofList shown ++ "\" unexpected")
  | [c] => faultAt text ("\"" ++ String.ofList [c] ++ "\" unexpected")

def readSimple : Reader Command := fun text => do
  let (p, rest) ← readParts (text.length + 1) ⟨[], [], []⟩ text
  if p.settings.isEmpty && p.words.isEmpty && p.redirects.isEmpty then unexpected rest
  else .ok (.simple text.length p.settings p.words p.redirects, rest)

/-! ## Commands -/

/-- The words that end a list of commands. -/
def closers : List Text :=
  ["then", "else", "elif", "fi", "do", "done", "\x7d"].map String.toList

/-- Does the text end a list of commands? -/
def endsList (text : Text) : Bool :=
  text.isEmpty || text.head? == some ')' || closers.contains (bareWord text)

/-- The text behind a word of the shell's own, which has to be there. -/
def expect (word : String) (text : Text) : Except Fault Text :=
  if beginsWith word text then .ok (dropBare word text) else unexpected text

/-- The fields of a loop over fields up to the end of the line; `fuel` is more than the length of the
text. -/
def readFields : Nat → Text → Except Fault (List Word × Text)
  | 0, text => .ok ([], text)
  | fuel + 1, text =>
    match skipGaps text with
    | [] => .ok ([], [])
    | c :: rest =>
      if c = ';' ∨ c = '\n' then .ok ([], rest)
      else if isDelimiter c then unexpected (c :: rest)
      else do
        let (word, rest) ← readWord (c :: rest)
        let (more, rest) ← readFields fuel rest
        .ok (word :: more, rest)

/-- The commands that may join two parts of a list. -/
inductive Joint where
  | both
  | either

/-- The mark between two pipes, if there is one. -/
def readJoint? : Text → Option (Joint × Text)
  | '&' :: '&' :: rest => some (.both, rest)
  | '|' :: '|' :: rest => some (.either, rest)
  | _ => none

mutual

/-- Commands one after the other, up to the end of the line if `isLine`, else up to what ends a list;
`fuel` bounds the depth of the reading. -/
def readList (isLine : Bool) : Nat → Text → Except Fault (Command × Text)
  | 0, text => .ok (.nothing, text)
  | fuel + 1, text =>
    let text := if isLine then skipGaps text else skipLines (text.length + 1) text
    if endsList text || text.head? == some '\n' then .ok (.nothing, text)
    else do
      let (command, rest) ← readJoined fuel text
      readMore isLine fuel command (skipGaps rest)

/-- What may follow a command of a list. -/
def readMore (isLine : Bool) : Nat → Command → Text → Except Fault (Command × Text)
  | 0, command, text => .ok (command, text)
  | fuel + 1, command, text =>
    match text with
    | '&' :: rest => do
      let (more, rest) ← readList isLine fuel rest
      .ok (.sequence (.background command) more, rest)
    | ';' :: rest =>
      if rest.head? = some ';' then unexpected text
      else do
        let (more, rest) ← readList isLine fuel rest
        .ok (.sequence command more, rest)
    | '\n' :: rest =>
      if isLine then .ok (command, text)
      else do
        let (more, rest) ← readList isLine fuel rest
        .ok (.sequence command more, rest)
    | text => if endsList text then .ok (command, text) else unexpected text

def readJoined : Nat → Text → Except Fault (Command × Text)
  | 0, text => .ok (.nothing, text)
  | fuel + 1, text => do
    let (first, rest) ← readPipe fuel text
    readJoints fuel first (skipGaps rest)

/-- The pipes that are joined to those before. -/
def readJoints : Nat → Command → Text → Except Fault (Command × Text)
  | 0, command, text => .ok (command, text)
  | fuel + 1, command, text =>
    match readJoint? text with
    | none => .ok (command, text)
    | some (joint, rest) => do
      let (second, rest) ← readPipe fuel (skipLines (rest.length + 1) rest)
      let joined :=
        match joint with
        | .both => Command.both command second
        | .either => Command.either command second
      readJoints fuel joined (skipGaps rest)

/-- Commands of which each reads what the one before prints. -/
def readPipe : Nat → Text → Except Fault (Command × Text)
  | 0, text => .ok (.nothing, text)
  | fuel + 1, text =>
    if beginsWith "!" text then do
      let (command, rest) ← readPipe fuel (skipGaps (dropBare "!" text))
      .ok (.negation command, rest)
    else do
      let (first, rest) ← readCommand fuel text
      match skipGaps rest with
      | '|' :: rest =>
        if rest.head? = some '|' then .ok (first, '|' :: rest)
        else do
          let (second, rest) ← readPipe fuel (skipLines (rest.length + 1) rest)
          .ok (.pipe first second, rest)
      | rest => .ok (first, rest)

def readCommand : Nat → Text → Except Fault (Command × Text)
  | 0, text => .ok (.nothing, text)
  | fuel + 1, text =>
    match text with
    | '(' :: rest => do
      let (inner, rest) ← readList false fuel rest
      match rest with
      | ')' :: rest => do
        let (redirects, rest) ← readRedirects (rest.length + 1) rest
        .ok (.subshell inner redirects, rest)
      | rest => unexpected rest
    | text =>
      if beginsWith "\x7b" text then do
        let (inner, rest) ← readList false fuel (dropBare "\x7b" text)
        let rest ← expect "\x7d" rest
        let (redirects, rest) ← readRedirects (rest.length + 1) rest
        .ok (.group inner redirects, rest)
      else if beginsWith "if" text then do
        let (choice, rest) ← readChoice fuel (dropBare "if" text)
        let (redirects, rest) ← readRedirects (rest.length + 1) rest
        .ok (.group choice redirects, rest)
      else if beginsWith "while" text || beginsWith "until" text then do
        let (condition, rest) ← readList false fuel (text.drop 5)
        let (body, rest) ← readBody fuel rest
        .ok (.loop (beginsWith "until" text) condition body, rest)
      else if beginsWith "for" text then do
        let name := bareWord (skipGaps (dropBare "for" text))
        let rest := skipGaps ((skipGaps (dropBare "for" text)).drop name.length)
        if beginsWith "in" rest then do
          let (words, rest) ← readFields (rest.length + 1) (dropBare "in" rest)
          let (body, rest) ← readBody fuel (skipLines (rest.length + 1) rest)
          .ok (.each name words body, rest)
        else do
          let rest := if rest.head? = some ';' then rest.drop 1 else rest
          let (body, rest) ← readBody fuel (skipLines (rest.length + 1) rest)
          .ok (.each name [[.parameter ['@'] .value true]] body, rest)
      else if endsList text then unexpected text
      else readSimple text

def readBody : Nat → Text → Except Fault (Command × Text)
  | 0, text => .ok (.nothing, text)
  | fuel + 1, text => do
    let (body, rest) ← readList false fuel (← expect "do" text)
    let rest ← expect "done" rest
    let (redirects, rest) ← readRedirects (rest.length + 1) rest
    .ok (if redirects.isEmpty then body else .group body redirects, rest)

def readChoice : Nat → Text → Except Fault (Command × Text)
  | 0, text => .ok (.nothing, text)
  | fuel + 1, text => do
    let (condition, rest) ← readList false fuel text
    let (yes, rest) ← readList false fuel (← expect "then" rest)
    if beginsWith "elif" rest then do
      let (no, rest) ← readChoice fuel (dropBare "elif" rest)
      .ok (.choice condition yes no, rest)
    else if beginsWith "else" rest then do
      let (no, rest) ← readList false fuel (dropBare "else" rest)
      .ok (.choice condition yes no, ← expect "fi" rest)
    else .ok (.choice condition yes .nothing, ← expect "fi" rest)

end

/-! ## Scripts -/

/-- The commands of the next line of a script and what follows, none at its end. -/
def readLine? (script : Text) : Option (Except Fault (Command × Text)) :=
  let text := skipLines (script.length + 1) script
  if text.isEmpty then none
  else
    some do
      let (command, rest) ← readList true (4 * text.length + 8) text
      match skipGaps rest with
      | [] => .ok (command, [])
      | '\n' :: rest => .ok (command, rest)
      | rest => unexpected rest

/-- The line of a script of which `left` characters are unread. -/
def lineOf (script : Text) (left : Nat) : Nat :=
  ((script.take (script.length - left)).count '\n') + 1

end AmdBundle.Shell
