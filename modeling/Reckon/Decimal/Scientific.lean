import Reckon.Decimal.Plain

/-!
# Notation with an exponent

`scientific` keeps coefficient and exponent apart, so that two representations of one number never
look alike.  Small negative exponents are shown by a point, as in plain notation; any other
exponent is written out after an `E`, with its sign, and the point then stands after the first
digit.
-/

set_option autoImplicit false

namespace Reckon
namespace Decimal

/-- A run of digits with a point after the first one, where more follow. -/
def firstPointed : Text → Text
  | c :: d :: s => c :: '.' :: d :: s
  | s => s

/-- The exponent that belongs to the digits when the point stands after the first of them. -/
def adjusted (d : Decimal) : Int :=
  d.exponent + (Numeral.digits d.coefficient).length - 1

/-- An exponent as it is written: `E`, its sign, its digits. -/
def exponentText (e : Int) : Text :=
  'E' :: (if e < 0 then '-' else '+') :: Numeral.digits e.natAbs

/-- A decimal in the notation that shows its exponent.  It is plain notation as long as the exponent
is not positive and no more than five zeros follow the point before the first digit. -/
def scientific (d : Decimal) : Text :=
  if d.exponent ≤ 0 ∧ -6 ≤ d.adjusted then d.plain
  else
    Literal.signText d.negative ++ firstPointed (Numeral.digits d.coefficient) ++
      exponentText d.adjusted

end Decimal
end Reckon
