import AmdBundle.Number.Binary64
import AmdBundle.Number.Places

/-!
# Sizes for people

`formatSize` writes a count of bytes in the greatest unit of which there is at least one: bytes as
they are, kilobytes and above with two places. A unit is 1024 of the next smaller one; gigabytes are
the greatest unit. The count goes through binary floating point, which is exact below `2 ^ 53`.
-/

set_option autoImplicit false

namespace AmdBundle.Display

inductive SizeUnit where
  | byte
  | kilo
  | mega
  | giga
  deriving DecidableEq, Repr

namespace SizeUnit

/-- How many times 1024 one unit is multiplied by itself. -/
def power : SizeUnit → Nat
  | byte => 0
  | kilo => 1
  | mega => 2
  | giga => 3

def name : SizeUnit → String
  | byte => "B"
  | kilo => "KB"
  | mega => "MB"
  | giga => "GB"

/-- The greatest unit of which `bytes` holds at least one. -/
def fitting (bytes : Nat) : SizeUnit :=
  if bytes < 1024 then byte
  else if bytes < Nat.pow 1024 2 then kilo
  else if bytes < Nat.pow 1024 3 then mega
  else giga

end SizeUnit

/-- A count as binary floating point holds it: exact below `2 ^ 53`, else the nearest number. -/
def heldCount (bytes : Nat) : Nat :=
  match Number.Binary64.ofNat bytes with
  | some x => x.ratio.1 / x.ratio.2
  | none => bytes

/-- A count of bytes with its unit. -/
def formatSize (bytes : Nat) : Text :=
  let unit := SizeUnit.fitting bytes
  if unit = .byte then Text.ofNat bytes ++ " B".toList
  else Number.twoPlaces (heldCount bytes) (Nat.pow 1024 unit.power) ++ ' ' :: unit.name.toList

end AmdBundle.Display
