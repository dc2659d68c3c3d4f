import AmdBundle.Number.Binary64
import AmdBundle.Number.Places

/-!
# Durations for people

Below a second a duration is written in whole milliseconds, below a minute in seconds with two
places, else in minutes and seconds. Fractions of a second are summed in binary floating point
before they are rounded to two places.
-/

set_option autoImplicit false

namespace AmdBundle.Display

/-- A length of time: whole seconds and fewer than `10 ^ 9` nanoseconds. -/
structure Duration where
  seconds : Nat
  nanos : Nat
  deriving DecidableEq, Repr

namespace Duration

def millis (d : Duration) : Nat :=
  d.seconds * 1000 + d.nanos / 1000000

/-- The seconds as a quotient: the binary sum of the whole seconds and the binary fraction. -/
def secondsRatio (d : Duration) : Nat × Nat :=
  let sum := do
    let nanos ← Number.Binary64.ofNat d.nanos
    let unit ← Number.Binary64.ofNat 1000000000
    let fraction ← nanos.div unit
    let whole ← Number.Binary64.ofNat d.seconds
    whole.add fraction
  (sum.getD .zero).ratio

def format (d : Duration) : Text :=
  if d.millis < 1000 then Text.ofNat d.millis ++ "ms".toList
  else if d.millis < 60000 then
    let (n, m) := d.secondsRatio
    Number.twoPlaces n m ++ ['s']
  else
    Text.ofNat (d.seconds / 60) ++ "m ".toList ++ Text.ofNat (d.seconds % 60) ++ ['s']

end Duration

end AmdBundle.Display
