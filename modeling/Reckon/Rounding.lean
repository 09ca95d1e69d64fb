/-!
# Rounding to the nearest integer

`nearestEven x` is the integer nearest to the rational number `x`.  When `x` lies exactly between
two integers it is the even one, so that errors of repeated rounding do not drift to one side.
-/

set_option autoImplicit false

namespace Reckon

/-- The integer nearest to `x`; of two equally near ones, the even one. -/
def nearestEven (x : Rat) : Int :=
  let low := x.floor
  let rest := x - low
  if rest < 1 / 2 then low
  else if 1 / 2 < rest then low + 1
  else if low % 2 = 0 then low
  else low + 1

end Reckon
