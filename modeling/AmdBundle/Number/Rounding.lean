/-!
# Rounding a quotient

`roundDiv n d` is the natural number nearest to `n / d`; of two equally near ones it is the even
one.
-/

set_option autoImplicit false

namespace AmdBundle.Number

/-- The nearest natural number to `n / d`, a tie going to the even one. -/
def roundDiv (n d : Nat) : Nat :=
  let q := n / d
  let r := n % d
  if 2 * r < d then q
  else if d < 2 * r then q + 1
  else q + q % 2

end AmdBundle.Number
