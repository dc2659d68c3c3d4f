import AmdBundle.Number.Binary64
import AmdBundle.Text.Basic

/-!
# The shortest decimal of a floating point number

`shortest tie x` finds the decimal with the fewest digits that reads back as `x`, and of those the
one nearest to `x`; `tie` decides between two that are equally near. It tests the two neighbours of
`x` on the grid of `1, 2, … 17` digits against the interval of reals that round to `x`, in exact
arithmetic.

Two layouts print it: `positional` and `jsonText`.
-/

set_option autoImplicit false

namespace AmdBundle.Number

/-- A decimal `digits * 10 ^ exponent`. -/
structure Decimal where
  digits : Nat
  /-- The power of ten of the last digit. -/
  exponent : Int
  deriving DecidableEq, Repr

/-- Which of two equally near neighbours is taken. -/
inductive Tie where
  | even
  | up
  deriving DecidableEq, Repr

namespace Binary64

/-- The least power of ten not above the positive quotient `n / d`, as its exponent. -/
def decimalMagnitude (n d : Nat) : Int :=
  if d ≤ n then ((Nat.toDigits 10 (n / d)).length : Int) - 1
  else -((Nat.toDigits 10 ((d + n - 1) / n - 1)).length : Int)

/-- The ends of the interval of reals that round to a positive number, over the denominator
`4 * 2 ^ k`, and the number itself over the same denominator. -/
def interval (x : Binary64) : Nat × Nat × Nat × Nat :=
  let m := x.significand
  let unit := if 0 ≤ x.exponent then Nat.pow 2 x.exponent.toNat else 1
  let den := if 0 ≤ x.exponent then 4 else 4 * Nat.pow 2 (-x.exponent).toNat
  let low :=
    if m = Nat.pow 2 52 ∧ minExponent < x.exponent then 4 * m - 1 else 4 * m - 2
  (low * unit, (4 * m + 2) * unit, 4 * m * unit, den)

/-- The decimal `c * 10 ^ e`, if it lies in the interval of `x`. -/
def candidate (x : Binary64) (c : Nat) (e : Int) : Option Decimal :=
  let (low, high, _, den) := x.interval
  let (a, b) := if 0 ≤ e then (c * Nat.pow 10 e.toNat * den, 1) else (c * den, Nat.pow 10 (-e).toNat)
  let inside :=
    if x.significand % 2 = 0 then low * b ≤ a ∧ a ≤ high * b else low * b < a ∧ a < high * b
  if inside then some ⟨c, e⟩ else none

/-- Is `c * 10 ^ e` less far above `x` than `(c - 1) * 10 ^ e` is below it? If both are equally far,
`tie` decides. -/
def upperIsNearer (tie : Tie) (x : Binary64) (c : Nat) (e : Int) : Bool :=
  let (_, _, mid, den) := x.interval
  let (a, b) :=
    if 0 ≤ e then ((2 * c - 1) * Nat.pow 10 e.toNat * den, 1) else ((2 * c - 1) * den, Nat.pow 10 (-e).toNat)
  a < 2 * mid * b || (a == 2 * mid * b && (tie == .up || c % 2 == 0))

/-- The best decimal of the grid of the given unit, if one of the two neighbours reads back. -/
def onGrid (tie : Tie) (x : Binary64) (e : Int) : Option Decimal :=
  let (_, _, mid, den) := x.interval
  let c := if 0 ≤ e then mid / (den * Nat.pow 10 e.toNat) else mid * Nat.pow 10 (-e).toNat / den
  match candidate x c e, candidate x (c + 1) e with
  | some low, some high => some (if upperIsNearer tie x (c + 1) e then high else low)
  | some low, none => some low
  | none, high => high

/-- The decimal with its trailing zeros moved into the exponent. -/
def stripZeros : Nat → Decimal → Decimal
  | 0, d => d
  | fuel + 1, d =>
    if d.digits % 10 = 0 ∧ d.digits ≠ 0 then stripZeros fuel ⟨d.digits / 10, d.exponent + 1⟩ else d

/-- The first hit among the grids of the given numbers of digits. -/
def firstOnGrid (tie : Tie) (x : Binary64) (magnitude : Int) : List Nat → Decimal
  | [] => ⟨x.significand, x.exponent⟩
  | n :: more =>
    match onGrid tie x (magnitude + 1 - n) with
    | some d => stripZeros 20 d
    | none => firstOnGrid tie x magnitude more

/-- The shortest decimal that reads back as the magnitude of `x`. -/
def shortest (tie : Tie) (x : Binary64) : Decimal :=
  if x.isZero then ⟨0, 0⟩
  else
    let (n, d) := x.ratio
    firstOnGrid tie x (decimalMagnitude n d) ((List.range 17).map (· + 1))

/-! ## Layout -/

/-- The digits with a point placed for the exponent, and no point in a whole number. -/
def positionalDigits (d : Decimal) : Text :=
  let ds := Text.ofNat d.digits
  if 0 ≤ d.exponent then ds ++ List.replicate d.exponent.toNat '0'
  else
    let places := (-d.exponent).toNat
    if places < ds.length then ds.take (ds.length - places) ++ '.' :: ds.drop (ds.length - places)
    else '0' :: '.' :: (List.replicate (places - ds.length) '0' ++ ds)

def signText (x : Binary64) : Text :=
  if x.negative then ['-'] else []

/-- Positional notation, whole numbers without a point; ties go up. -/
def positional (x : Binary64) : Text :=
  x.signText ++ positionalDigits (x.shortest .up)

/-- A text that shows a point, as it is, or with `.0` behind it. -/
def withPoint (text : Text) : Text :=
  if text.contains '.' then text else text ++ ['.', '0']

/-- One digit before the point, the others behind it, and a signed exponent. -/
def scientificDigits (d : Decimal) (e : Int) : Text :=
  let ds := Text.ofNat d.digits
  let mantissa := if ds.length ≤ 1 then ds else ds.take 1 ++ '.' :: ds.drop 1
  mantissa ++ 'e' :: (if e < 0 then '-' else '+') :: Text.ofNat e.natAbs

/-- The JSON form: positional with at least one digit behind the point from `10 ^ -5` on and below
`10 ^ 16`, scientific elsewhere; ties go to the even last digit. -/
def jsonText (x : Binary64) : Text :=
  let d := x.shortest .even
  let e := d.exponent + (Text.ofNat d.digits).length - 1
  x.signText ++
    (if x.isZero ∨ (-5 ≤ e ∧ e < 16) then withPoint (positionalDigits d) else scientificDigits d e)

end Binary64

end AmdBundle.Number
