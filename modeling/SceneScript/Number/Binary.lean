/-!
# Binary numbers

Numbers with a limited count of binary digits, kept as exact rationals. Each operation is the exact
one, rounded to the nearest number of the format.
-/

namespace SceneScript

/-- The nearest integer. A half goes to the even neighbour. -/
def roundEven (q : Rat) : Int :=
  let below := q.floor
  let rest := q - below
  if rest < 1 / 2 then below
  else if 1 / 2 < rest then below + 1
  else if below % 2 = 0 then below
  else below + 1

/-- The nearest integer. A half goes away from zero. -/
def roundAway (q : Rat) : Int := if 0 ≤ q then (q + 1 / 2).floor else -(1 / 2 - q).floor

/-- The exponent of the greatest power of two that is at most the magnitude of `q`, unless `q` is
zero. The sizes of numerator and denominator give it, or the number above it. -/
def binaryOrder (q : Rat) : Int :=
  let estimate : Int := q.num.natAbs.log2 - q.den.log2
  if (2 : Rat) ^ estimate ≤ q.abs then estimate else estimate - 1

/-- The nearest number from zero to one. -/
def clampUnit (q : Rat) : Rat := if q ≤ 0 then 0 else if 1 ≤ q then 1 else q

/-- A number, one of the two infinities, or the result of an operation that has none. Zero has no
sign. -/
inductive Binary where
  | finite (value : Rat)
  | infinite (negative : Bool)
  | nan
  deriving DecidableEq, Repr, Inhabited

namespace Binary

/-- Numbers have `digits` binary digits, none of them below `2 ^ least`, and are less than
`2 ^ limit`. -/
structure Format where
  digits : Nat
  least : Int
  limit : Nat
  deriving DecidableEq, Repr, Inhabited

namespace Format

def single : Format := ⟨24, -149, 128⟩

def double : Format := ⟨53, -1074, 1024⟩

/-- The place value of the last digit of numbers near `q`. -/
def unit (format : Format) (q : Rat) : Rat :=
  2 ^ max (binaryOrder q - (format.digits - 1)) format.least

/-- The number with the right count of digits that is nearest to `q`, of two the even one. -/
def nearest (format : Format) (q : Rat) : Rat :=
  if q = 0 then 0 else roundEven (q / format.unit q) * format.unit q

def round (format : Format) (q : Rat) : Binary :=
  let value := format.nearest q
  if (2 : Rat) ^ format.limit ≤ value.abs then .infinite (value < 0) else .finite value

/-- A number of another format in this one. -/
def convert (format : Format) : Binary → Binary
  | .finite value => format.round value
  | value => value

/-- The binary digits of a number of the format that is not negative, behind those of its exponent.
The order of the patterns is that of the numbers. -/
def pattern (format : Format) (value : Rat) : Nat :=
  if value = 0 then 0
  else
    let unit := max (binaryOrder value - (format.digits - 1)) format.least
    (unit - format.least).toNat <<< (format.digits - 1) + (value / 2 ^ unit).floor.toNat

end Format

def isFinite : Binary → Bool
  | finite _ => true
  | _ => false

/-- The greatest integer below, between two bounds. -/
def floorWithin (low high : Int) : Binary → Int
  | finite value => max low (min high value.floor)
  | infinite negative => if negative then low else high
  | nan => 0

end Binary
end SceneScript
