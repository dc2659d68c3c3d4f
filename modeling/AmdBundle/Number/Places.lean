import AmdBundle.Number.Rounding
import AmdBundle.Text.Basic

/-!
# Two decimal places

`twoPlaces n d` writes the quotient `n / d` with two places, rounded to nearest, a tie to the even
last digit.
-/

set_option autoImplicit false

namespace AmdBundle.Number

def hundredths (n d : Nat) : Nat :=
  roundDiv (100 * n) d

/-- A number of hundredths with a point before its last two digits. -/
def pointed (h : Nat) : Text :=
  Text.ofNat (h / 100) ++ '.' :: (Text.ofNat (h % 100 / 10) ++ Text.ofNat (h % 10))

/-- The quotient `n / d` with two places. -/
def twoPlaces (n d : Nat) : Text :=
  pointed (hundredths n d)

end AmdBundle.Number
