import Reckon.Numeral
import Reckon.Rounding

/-!
# Decimal numbers

A `Decimal` is a sign, a coefficient and a power of ten.  The same number has many
representations: `1.2` and `1.20` differ in coefficient and exponent, and zero has a sign.  All of
that shows when a decimal is written out, so nothing is normalised; `Decimal.toRat` is the number
meant.

Sums, differences and remainders are written with the smaller of the two exponents, products with
their sum, and no digit is ever lost.  Only `round` gives digits up, and it says so by its scale.
-/

set_option autoImplicit false

namespace Reckon

/-- The number `± coefficient · 10 ^ exponent`. -/
structure Decimal where
  /-- Whether the sign is a minus; zero may have one too. -/
  negative : Bool
  /-- The digits, as a natural number. -/
  coefficient : Nat
  /-- The power of ten that the coefficient counts. -/
  exponent : Int
deriving DecidableEq, Repr

namespace Decimal

/-! ## The number meant -/

/-- The coefficient with its sign. -/
def units (d : Decimal) : Int :=
  if d.negative then -(d.coefficient : Int) else d.coefficient

/-- The rational number that a decimal stands for. -/
def toRat (d : Decimal) : Rat := d.units * (10 : Rat) ^ d.exponent

/-- A decimal is zero when its coefficient is, whatever its sign and exponent. -/
def isZero (d : Decimal) : Bool := d.coefficient = 0

/-- The decimal of an integer count of `10 ^ exponent`; zero gets the plus sign. -/
def ofUnits (units exponent : Int) : Decimal :=
  ⟨decide (units < 0), units.natAbs, exponent⟩

/-! ## Exact arithmetic -/

/-- The coefficient of `d` when it is written with the exponent `e`, which is at most its own. -/
def coefficientAt (d : Decimal) (e : Int) : Nat :=
  d.coefficient * Nat.pow 10 (d.exponent - e).toNat

/-- `unitsAt` is `coefficientAt` with the sign. -/
def unitsAt (d : Decimal) (e : Int) : Int :=
  if d.negative then -(d.coefficientAt e : Int) else d.coefficientAt e

/-- The decimal with the other sign, also for zero. -/
def neg (d : Decimal) : Decimal := { d with negative := !d.negative }

/-- The sum, with the smaller exponent.  A sum that is zero has the plus sign unless both summands
are negative zeros. -/
def add (a b : Decimal) : Decimal :=
  let e := min a.exponent b.exponent
  let sum := a.unitsAt e + b.unitsAt e
  ⟨if sum = 0 then a.negative && b.negative else decide (sum < 0), sum.natAbs, e⟩

/-- The difference is the sum with the second number's sign turned. -/
def sub (a b : Decimal) : Decimal := a.add b.neg

/-- The product; its sign is a minus when exactly one factor has one, also for zero. -/
def mul (a b : Decimal) : Decimal :=
  ⟨a.negative != b.negative, a.coefficient * b.coefficient, a.exponent + b.exponent⟩

/-- What is left of `a` after taking away as many whole `b` as fit, with the sign of `a`. -/
def rem (a b : Decimal) : Decimal :=
  let e := min a.exponent b.exponent
  ⟨a.negative, a.coefficientAt e % b.coefficientAt e, e⟩

/-! ## Rounding -/

/-- The multiple of `10 ^ (-scale)` nearest to `x`, ties to the even multiple, written with exactly
the exponent `-scale`.  There is none when that would take more than `Numeral.maxDigits` digits. -/
def round? (x : Rat) (scale : Int) : Option Decimal :=
  let units := nearestEven (x * (10 : Rat) ^ scale)
  if Numeral.isOverlong units.natAbs then none else some (ofUnits units (-scale))

end Decimal
end Reckon
