import Reckon.Decimal.Basic

/-!
# Binary floating point

`Binary64` holds the numbers of the common 64-bit format exactly: a significand of at most 53 bits
and a power of two, the two infinities, and a value that is no number.  There is no arithmetic here.
Such numbers only come in and go out again as settings, and what matters is which of them a decimal
text means (`nearest`, `ofDecimal`).
-/

set_option autoImplicit false

namespace Reckon

/-- A number of the 64-bit binary format. -/
inductive Binary64 where
  /-- The number `± significand · 2 ^ exponent`. -/
  | finite (negative : Bool) (significand : Nat) (exponent : Int)
  /-- A number too large for the format. -/
  | infinite (negative : Bool)
  /-- No number. -/
  | nan
deriving DecidableEq, Repr

namespace Binary64

/-- The bits of a significand. -/
def precision : Nat := 53

/-- The exponent of the smallest numbers. -/
def minExponent : Int := -1074

/-- The exponent of the largest numbers. -/
def maxExponent : Int := 971

/-- The exponent of the largest power of two that is at most `x`, for a positive `x`. -/
def floorLog2 (x : Rat) : Int :=
  let e : Int := (x.num.natAbs.log2 : Int) - x.den.log2
  if (2 : Rat) ^ e ≤ x then e else e - 1

/-- The number with this sign that is nearest to `x`, for an `x` that is not negative; of two
equally near ones, the one with the even significand. -/
def nearest (negative : Bool) (x : Rat) : Binary64 :=
  if x = 0 then .finite negative 0 minExponent
  else
    let e := max (floorLog2 x - (precision - 1 : Nat)) minExponent
    let m := (nearestEven (x / (2 : Rat) ^ e)).natAbs
    let (m, e) := if m = Nat.pow 2 precision then (Nat.pow 2 (precision - 1), e + 1) else (m, e)
    if maxExponent < e then .infinite negative else .finite negative m e

/-- The power of ten from which on every number is too large for the format. -/
def overflowPower : Int := 309

/-- The power of ten up to which every number is nearest to zero. -/
def underflowPower : Int := -324

/-- The number nearest to a decimal.  Decimals far out of range are settled by their exponent. -/
def ofDecimal (d : Decimal) : Binary64 :=
  let power := d.exponent + (Numeral.digits d.coefficient).length
  if d.isZero || power ≤ underflowPower then nearest d.negative 0
  else if overflowPower < power then .infinite d.negative
  else nearest d.negative (d.coefficient * (10 : Rat) ^ d.exponent)

/-- The absolute value of a finite number. -/
def magnitude (significand : Nat) (exponent : Int) : Rat :=
  significand * (2 : Rat) ^ exponent

end Binary64
end Reckon
