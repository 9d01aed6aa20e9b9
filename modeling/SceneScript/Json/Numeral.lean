import SceneScript.Json.Basic
import SceneScript.Number.Binary
/-!
# Values of numerals

A numeral stands for a number in double precision. The digits that fit into 64 bits are rounded to
double precision, and then multiplied with a power of ten, or divided by one, that is rounded too.
The result can be the neighbour of the nearest number.
-/

namespace SceneScript

namespace Numeral

open Binary (Format)

/-- The leading digits that fit into 64 bits, and how many are left out. -/
def leadingDigits (digits : Nat) : Nat × Nat :=
  if digits < UInt64.size then (digits, 0)
  else
    let (kept, dropped) := leadingDigits (digits / 10)
    (kept, dropped + 1)
termination_by digits
decreasing_by simp only [UInt64.size] at *; omega

/-- The greatest exponent of a power of ten in double precision. -/
def greatestPower : Nat := 308

def power (exponent : Nat) : Rat := Format.double.nearest (10 ^ exponent)

/-- Scaling by a power of ten. Small ones take two steps; below those nothing is left of a value of
64 bits. -/
def scaled (value : Rat) (exponent : Int) : Binary :=
  let greatest : Int := greatestPower
  let double := Format.double
  if value = 0 then .finite 0
  else if greatest < exponent then .infinite false
  else if 0 ≤ exponent then double.round (value * power exponent.toNat)
  else if -greatest ≤ exponent then .finite (double.nearest (value / power (-exponent).toNat))
  else if -(2 * greatest) ≤ exponent then
    .finite (double.nearest
      (double.nearest (value / power greatestPower) / power (-exponent - greatest).toNat))
  else .finite 0

def magnitude (digits : Nat) (exponent : Int) : Binary :=
  let (kept, dropped) := leadingDigits digits
  scaled (Format.double.nearest kept) (exponent + dropped)

def negateIf (negative : Bool) : Binary → Binary
  | .finite value => .finite (if negative then -value else value)
  | value => value

def value : Numeral → Binary
  | .integer value => negateIf (value < 0) (magnitude value.natAbs 0)
  | .decimal negative digits exponent => negateIf negative (magnitude digits exponent)

/-- The numeral has a value. An integer of 64 bits always has one. -/
def isFinite : Numeral → Bool
  | .integer value => value.natAbs < UInt64.size || (magnitude value.natAbs 0).isFinite
  | .decimal _ digits exponent => (magnitude digits exponent).isFinite

end Numeral
end SceneScript
