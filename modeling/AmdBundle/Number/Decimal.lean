import AmdBundle.Number.Shortest

/-!
# Decimal fractions

* `Spelled.parse?` : a sign, digits with a point among them, and an exponent;
* `Binary64.ofDecimal` : the number nearest to `digits * 10 ^ exponent`;
* `Spelled.text` : a decimal number as its nearest binary number is written.
-/

set_option autoImplicit false

namespace AmdBundle.Number

/-- `digits * 10 ^ exponent` with a sign, as it is spelled. -/
structure Spelled where
  negative : Bool
  digits : Nat
  /-- The power of ten by which they count. -/
  exponent : Int
  deriving DecidableEq, Repr

def digitsValue (digits : Text) : Nat :=
  digits.foldl (fun n c => n * 10 + (c.toNat - 48)) 0

/-- A sign in front, which may be missing, and the text behind it. -/
def readSign : Text → Bool × Text
  | '-' :: rest => (true, rest)
  | '+' :: rest => (false, rest)
  | text => (false, text)

def readPower : Text → Option Int
  | [] => some 0
  | c :: rest =>
    if c = 'e' ∨ c = 'E' then
      let (negative, digits) := readSign rest
      if digits.isEmpty || !digits.all Char.isDigit then none
      else some (if negative then -(digitsValue digits : Int) else digitsValue digits)
    else none

/-- A decimal number: digits, a point, digits, of which one part may be missing, and an exponent. -/
def Spelled.parse? (text : Text) : Option Spelled :=
  let (negative, text) := readSign text
  let before := text.takeWhile Char.isDigit
  match text.dropWhile Char.isDigit with
  | '.' :: rest =>
    let behind := rest.takeWhile Char.isDigit
    if before.isEmpty && behind.isEmpty then none
    else
      (readPower (rest.dropWhile Char.isDigit)).map fun power =>
        ⟨negative, digitsValue (before ++ behind), power - behind.length⟩
  | rest =>
    if before.isEmpty then none
    else (readPower rest).map fun power => ⟨negative, digitsValue before, power⟩

/-- The number nearest to `digits * 10 ^ exponent`, unless it is too great to be finite. A number
beyond every finite one, or nearer to zero than to any other, is known by its number of digits. -/
def Binary64.ofDecimal (digits : Nat) (exponent : Int) : Option Binary64 :=
  let size : Int := (Nat.toDigits 10 digits).length + exponent
  if digits = 0 ∨ size < -330 then some .zero
  else if 330 < size then none
  else if 0 ≤ exponent then nearest (digits * Nat.pow 10 exponent.toNat) 1
  else nearest digits (Nat.pow 10 (-exponent).toNat)

/-- The nearest binary number of a decimal number, in positional form. -/
def Spelled.text (s : Spelled) : Text :=
  let sign : Text := if s.negative then ['-'] else []
  match Binary64.ofDecimal s.digits s.exponent with
  | some x => sign ++ x.positional
  | none => sign ++ "inf".toList

end AmdBundle.Number
