import AmdBundle.Text.Utf8

/-!
# Formatted printing

* `unescape` : bytes of a text with escapes; an octal escape is any byte, so the result need not be text;
* `format` : what a format prints for some arguments; it is used again as long as arguments are left.
-/

set_option autoImplicit false

namespace AmdBundle.Shell

/-! ## Escapes -/

/-- The value of at most so many octal digits in front of a text, added to `value`. -/
def octal : Nat → Nat → Text → Nat × Text
  | 0, value, text => (value, text)
  | _ + 1, value, [] => (value, [])
  | count + 1, value, c :: rest =>
    if '0' ≤ c ∧ c ≤ '7' then octal count (value * 8 + (c.toNat - 48)) rest
    else (value, c :: rest)

/-- The code of an escape that is one letter. -/
def letterCode? (c : Char) : Option Nat :=
  match c with
  | 'a' => some 7
  | 'b' => some 8
  | 't' => some 9
  | 'n' => some 10
  | 'v' => some 11
  | 'f' => some 12
  | 'r' => some 13
  | '\\' => some 92
  | _ => none

/-- The bytes of an escape after its backslash, and what follows. A zero in front of the octal digits
is not one of them if `zeroFirst`. -/
def readEscape (zeroFirst : Bool) : Text → Bytes × Text
  | [] => ([92], [])
  | c :: rest =>
    match letterCode? c with
    | some code => ([UInt8.ofNat code], rest)
    | none =>
      if '0' ≤ c ∧ c ≤ '7' then
        let (value, rest) := octal 3 0 (if zeroFirst && c == '0' then rest else c :: rest)
        ([UInt8.ofNat value], rest)
      else if c = '"' && !zeroFirst then ([34], rest)
      else (92 :: Text.encode [c], rest)

/-- The bytes of a text with escapes, and whether it is cut off by an escape; `fuel` is more than its
length. -/
def unescapeFrom (zeroFirst : Bool) : Nat → Text → Bytes × Bool
  | 0, _ => ([], false)
  | _ + 1, [] => ([], false)
  | fuel + 1, c :: rest =>
    if c = '\\' then
      if rest.head? = some 'c' then ([], true)
      else
        let (bytes, rest) := readEscape zeroFirst rest
        let (more, isCut) := unescapeFrom zeroFirst fuel rest
        (bytes ++ more, isCut)
    else
      let (more, isCut) := unescapeFrom zeroFirst fuel rest
      (Text.encode [c] ++ more, isCut)

/-- The bytes of a text with escapes, and whether it is cut off by an escape. -/
def unescape (text : Text) : Bytes × Bool :=
  unescapeFrom true (text.length + 1) text

/-! ## Numbers -/

/-- The value of digits of a base, none if there is another character. -/
def digitsValue? (base : Nat) (digits : Text) : Option Nat :=
  let value := fun c : Char =>
    if c.isDigit then c.toNat - 48
    else if 'a' ≤ c ∧ c ≤ 'f' then c.toNat - 87
    else if 'A' ≤ c ∧ c ≤ 'F' then c.toNat - 55
    else 99
  if digits.isEmpty then none
  else digits.foldl (fun n? c => n?.bind fun n =>
    if value c < base then some (n * base + value c) else none) (some 0)

/-- A whole number without sign, in the base that its beginning shows. -/
def naturalOf? : Text → Option Nat
  | '0' :: 'x' :: rest => digitsValue? 16 rest
  | '0' :: 'X' :: rest => digitsValue? 16 rest
  | '0' :: c :: rest => digitsValue? 8 (c :: rest)
  | text => digitsValue? 10 text

def integerOf? : Text → Option Int
  | '-' :: rest => (naturalOf? rest).map fun n => -(n : Int)
  | '+' :: rest => (naturalOf? rest).map fun n => (n : Int)
  | text => (naturalOf? text).map fun n => (n : Int)

/-- The digits of a number in a base. -/
def digitsOf (base : Nat) (n : Nat) : Text :=
  Nat.toDigits base n

/-! ## Formats -/

/-- How the value of a conversion is laid out. -/
structure Layout where
  toLeft : Bool
  withZeros : Bool
  width : Nat
  /-- The greatest number of characters of a text, the least number of digits. -/
  precision : Option Nat

/-- The bytes of a value with what fills it up. -/
def Layout.fill (l : Layout) (bytes : Bytes) : Bytes :=
  let missing := l.width - bytes.length
  if l.toLeft then bytes ++ List.replicate missing 32
  else List.replicate missing (if l.withZeros then 48 else 32) ++ bytes

/-- The flags at the front of a conversion. -/
def readFlags (l : Layout) : Text → Layout × Text
  | '-' :: rest => readFlags { l with toLeft := true } rest
  | '0' :: rest => readFlags { l with withZeros := true } rest
  | text => (l, text)

/-- The layout of a conversion after its percent sign, and what follows. -/
def readLayout (text : Text) : Layout × Text :=
  let (l, rest) := readFlags ⟨false, false, 0, none⟩ text
  let width := (digitsValue? 10 (rest.takeWhile Char.isDigit)).getD 0
  match rest.dropWhile Char.isDigit with
  | '.' :: rest =>
    ({ l with
        width := width
        precision := some ((digitsValue? 10 (rest.takeWhile Char.isDigit)).getD 0) },
      rest.dropWhile Char.isDigit)
  | rest => ({ l with width := width }, rest)

/-- The number of an argument: its value, or the code of a character behind a quote. -/
def numberOf (argument : Text) : Int :=
  match argument with
  | '\'' :: c :: _ => c.toNat
  | '"' :: c :: _ => c.toNat
  | text => (integerOf? text).getD 0

/-- A number with its sign and at least so many digits. -/
def signed (digits : Nat) (n : Int) : Text :=
  let shown := digitsOf 10 n.natAbs
  (if n < 0 then ['-'] else []) ++ List.replicate (digits - shown.length) '0' ++ shown

/-- A number of 64 bits in a base. -/
def wordDigits (base : Nat) (n : Int) : Text :=
  digitsOf base (n % Int.pow 2 64).toNat

/-- What a conversion prints for an argument. -/
def convert (l : Layout) (letter : Char) (argument : Text) : Bytes :=
  match letter with
  | 's' =>
    let bytes := Text.encode argument
    l.fill (match l.precision with
      | some n => bytes.take n
      | none => bytes)
  | 'b' => l.fill (unescape argument).1
  | 'c' => l.fill ((Text.encode argument).take 1)
  | 'd' | 'i' => l.fill (Text.encode (signed (l.precision.getD 0) (numberOf argument)))
  | 'u' => l.fill (Text.encode (wordDigits 10 (numberOf argument)))
  | 'o' => l.fill (Text.encode (wordDigits 8 (numberOf argument)))
  | 'x' => l.fill (Text.encode (wordDigits 16 (numberOf argument)))
  | 'X' => l.fill (Text.encode ((wordDigits 16 (numberOf argument)).map Char.toUpper))
  | _ => []

/-- What a format prints once, and the arguments that are left; `fuel` is more than its length. -/
def formatOnce : Nat → Text → List Text → Bytes × List Text
  | 0, _, arguments => ([], arguments)
  | _ + 1, [], arguments => ([], arguments)
  | fuel + 1, c :: rest, arguments =>
    if c = '\\' then
      let (bytes, rest) := readEscape false rest
      let (more, arguments) := formatOnce fuel rest arguments
      (bytes ++ more, arguments)
    else if c = '%' then
      let (l, rest) := readLayout rest
      match rest with
      | [] => ([], arguments)
      | '%' :: rest =>
        let (more, arguments) := formatOnce fuel rest arguments
        (37 :: more, arguments)
      | letter :: rest =>
        let (more, left) := formatOnce fuel rest arguments.tail
        (convert l letter (arguments.headD []) ++ more, left)
    else
      let (more, arguments) := formatOnce fuel rest arguments
      (Text.encode [c] ++ more, arguments)

/-- What a format prints for arguments, used again while some are left; `fuel` is more than their
number. -/
def formatAgain (text : Text) : Nat → List Text → Bytes
  | 0, _ => []
  | fuel + 1, arguments =>
    let (bytes, left) := formatOnce (text.length + 1) text arguments
    if left.isEmpty || left.length = arguments.length then bytes
    else bytes ++ formatAgain text fuel left

def format (text : Text) (arguments : List Text) : Bytes :=
  formatAgain text (arguments.length + 1) arguments

/-! ## Other texts -/

def spaced (words : List Text) : Text :=
  [' '].intercalate words

/-- What is printed for words: their escapes are read, and a line feed follows. -/
def echoed : List Text → Bytes
  | ['-', 'n'] :: words => (unescape (spaced words)).1
  | words =>
    let (bytes, isCut) := unescape (spaced words)
    if isCut then bytes else bytes ++ [10]

end AmdBundle.Shell
