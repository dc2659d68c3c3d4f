/-!
# Text

Text is a list of characters, read from the left by every rule of this library.

* `splitOnce`, `splitLast` : the parts around the first or last separator;
* `occursIn` : does a word occur in a text; `replaceFirst` : swap its first occurrence;
* `replaceChar` : swap every occurrence of one character for a text;
* `trimStart`, `trimEnd`, `trim` : drop the characters of a class at the ends;
* `asciiLower`, `asciiUpper` : case maps that touch ASCII letters only;
* `before` : the order of names, by code point, which is also the order of their UTF-8 bytes.
-/

set_option autoImplicit false

namespace AmdBundle

/-- A text, one character after the other. -/
abbrev Text := List Char

namespace Text

/-! ## Cutting -/

/-- The parts before and after the first `c`, if there is one. -/
def splitOnce (c : Char) : Text → Option (Text × Text)
  | [] => none
  | d :: rest =>
    if d = c then some ([], rest)
    else (splitOnce c rest).map fun parts => (d :: parts.1, parts.2)

/-- The parts before and after the last `c`, if there is one. -/
def splitLast (c : Char) : Text → Option (Text × Text)
  | [] => none
  | d :: rest =>
    match splitLast c rest with
    | some (front, back) => some (d :: front, back)
    | none => if d = c then some ([], rest) else none

/-- The text without `word` in front, if it starts with `word`. -/
def dropWord (word text : Text) : Option Text :=
  word.isPrefixOf? text

/-- The text without `word` at its end, if it ends with `word`. -/
def dropEnding (word text : Text) : Option Text :=
  (word.reverse.isPrefixOf? text.reverse).map List.reverse

/-- Does `text` end with `word`? -/
def endsWith (word text : Text) : Bool :=
  word.isSuffixOf text

/-! ## Searching and replacing -/

/-- Does `word` occur anywhere in the text? -/
def occursIn (word : Text) : Text → Bool
  | [] => word.isEmpty
  | c :: rest => word.isPrefixOf (c :: rest) || occursIn word rest

/-- The text with the first occurrence of `word` replaced by `by'`. -/
def replaceFirst (word by' : Text) : Text → Text
  | [] => []
  | c :: rest =>
    match dropWord word (c :: rest) with
    | some after => by' ++ after
    | none => c :: replaceFirst word by' rest

/-- The text with every `c` replaced by `by'`. -/
def replaceChar (c : Char) (by' : Text) (text : Text) : Text :=
  text.flatMap fun d => if d = c then by' else [d]

/-! ## Trimming -/

/-- The text without the characters of class `p` in front. -/
def trimStart (p : Char → Bool) (text : Text) : Text :=
  text.dropWhile p

/-- The text without the characters of class `p` at its end. -/
def trimEnd (p : Char → Bool) (text : Text) : Text :=
  (text.reverse.dropWhile p).reverse

/-- The text without the characters of class `p` at either end. -/
def trim (p : Char → Bool) (text : Text) : Text :=
  trimEnd p (trimStart p text)

/-! ## ASCII case -/

/-- An ASCII capital becomes small; every other character stays. -/
def lowerChar (c : Char) : Char :=
  if 'A' ≤ c ∧ c ≤ 'Z' then Char.ofNat (c.toNat + 32) else c

/-- An ASCII small letter becomes capital; every other character stays. -/
def upperChar (c : Char) : Char :=
  if 'a' ≤ c ∧ c ≤ 'z' then Char.ofNat (c.toNat - 32) else c

/-- The text with its ASCII capitals made small. -/
def asciiLower (text : Text) : Text :=
  text.map lowerChar

/-- The text with its small ASCII letters made capital. -/
def asciiUpper (text : Text) : Text :=
  text.map upperChar

/-! ## Order -/

/-- Does the first name come before the second, or equal it, by code points? -/
def before : Text → Text → Bool
  | [], _ => true
  | _ :: _, [] => false
  | a :: as, b :: bs => if a = b then before as bs else a.toNat < b.toNat

def ofNat (n : Nat) : Text :=
  Nat.toDigits 10 n

end Text

end AmdBundle
