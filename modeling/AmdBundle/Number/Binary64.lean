import AmdBundle.Number.Rounding

/-!
# Binary floating point with 53 significant bits

A finite number is a sign and `significand * 2 ^ exponent`, kept in its canonical form: the
significand has at most 53 bits, all 53 unless the exponent is the least one. Every operation is
the exact result rounded to nearest, a tie to the even significand; a result beyond the greatest
finite number is `none`.

* `nearest` : the number nearest to a quotient of natural numbers;
* `ofNat`, `add`, `mul`, `div` : the operations on magnitudes;
* `powerOfTen`, `timesPowerOfTen` : a natural number scaled by a power of ten in the few rounded
  steps that a JSON reader takes.
-/

set_option autoImplicit false

namespace AmdBundle.Number

/-- A finite binary64 number. -/
structure Binary64 where
  negative : Bool
  /-- At most 53 bits. -/
  significand : Nat
  /-- The power of two by which the significand counts. -/
  exponent : Int
  deriving DecidableEq, Repr

namespace Binary64

def minExponent : Int := -1074

/-- The greatest exponent of a finite number. -/
def maxExponent : Int := 971

def zero : Binary64 := ⟨false, 0, minExponent⟩

def negate (x : Binary64) : Binary64 :=
  { x with negative := !x.negative }

/-- Is it one of the two zeros? -/
def isZero (x : Binary64) : Bool :=
  x.significand == 0

/-- The magnitude as a quotient of natural numbers. -/
def ratio (x : Binary64) : Nat × Nat :=
  if 0 ≤ x.exponent then (x.significand * Nat.pow 2 x.exponent.toNat, 1)
  else (x.significand, Nat.pow 2 (-x.exponent).toNat)

/-- The quotient `n / d / 2 ^ e` as a quotient of natural numbers. -/
def scaled (n d : Nat) (e : Int) : Nat × Nat :=
  if 0 ≤ e then (n, d * Nat.pow 2 e.toNat) else (n * Nat.pow 2 (-e).toNat, d)

/-- The exponent with which `n / d` has a significand of 53 bits, or the least one. -/
def exponentOf (n d : Nat) : Int :=
  let guess : Int := (Nat.log2 n : Int) - (Nat.log2 d : Int) - 53
  let (a, b) := scaled n d guess
  let exact := if a / b < Nat.pow 2 53 then guess else guess + 1
  max exact minExponent

/-- The number nearest to `n / d`, unless it is too great to be finite. -/
def nearest (n d : Nat) : Option Binary64 :=
  if n = 0 then some zero
  else
    let e := exponentOf n d
    let (a, b) := scaled n d e
    let m := roundDiv a b
    let (m, e) := if m = Nat.pow 2 53 then (Nat.pow 2 52, e + 1) else (m, e)
    if maxExponent < e then none else some ⟨false, m, e⟩

/-- The number nearest to a natural number. -/
def ofNat (n : Nat) : Option Binary64 :=
  nearest n 1

def add (x y : Binary64) : Option Binary64 :=
  nearest (x.ratio.1 * y.ratio.2 + y.ratio.1 * x.ratio.2) (x.ratio.2 * y.ratio.2)

def mul (x y : Binary64) : Option Binary64 :=
  nearest (x.ratio.1 * y.ratio.1) (x.ratio.2 * y.ratio.2)

/-- The quotient of two magnitudes; the divisor is not zero. -/
def div (x y : Binary64) : Option Binary64 :=
  nearest (x.ratio.1 * y.ratio.2) (x.ratio.2 * y.ratio.1)

/-- The number nearest to `10 ^ k`, finite up to `k = 308`. -/
def powerOfTen (k : Nat) : Option Binary64 :=
  ofNat (Nat.pow 10 k)

/-- The magnitude times `10 ^ e`, by one rounded multiplication or division where the power is
finite. A smaller power is reached by dividing by `10 ^ 308` first, a greater one is out of range. -/
def timesPowerOfTen (x : Binary64) (e : Int) : Option Binary64 :=
  if x.isZero then some x
  else if 308 < e then none
  else if 0 ≤ e then (powerOfTen e.toNat).bind x.mul
  else if -308 ≤ e then (powerOfTen (-e).toNat).bind x.div
  else ((powerOfTen 308).bind x.div).bind fun y => timesPowerOfTen y (e + 308)
termination_by e.natAbs

end Binary64

end AmdBundle.Number
