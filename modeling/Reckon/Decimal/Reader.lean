import Reckon.Decimal.Basic

/-!
# Reading decimal numbers

`ofText?` reads both notations that decimals are written in: an optional sign, digits with at most
one point among them, and an optional exponent.  Every digit counts, so `1.20` has two places and
`00.5` the coefficient of `0.5`; the digits after the point lower the exponent.
-/

set_option autoImplicit false

namespace Reckon
namespace Decimal

/-- A text split into an optional sign and the rest: whether the sign is a minus, and the rest. -/
def splitSign : Text → Bool × Text
  | '-' :: s => (true, s)
  | '+' :: s => (false, s)
  | s => (false, s)

/-- The integer that a sign and one or more digits write. -/
def integer? (s : Text) : Option Int :=
  let (negative, t) := splitSign s
  if t.isEmpty || !t.all Char.isDigit then none
  else some (if negative then -(Numeral.ofDigits t : Int) else Numeral.ofDigits t)

/-- The exponent after the digits: none at all counts as zero. -/
def exponent? : Text → Option Int
  | [] => some 0
  | c :: s => if c = 'E' || c = 'e' then integer? s else none

/-- The digits after the point, where there is one, and what follows them. -/
def splitPlaces : Text → Text × Text
  | '.' :: s => (s.takeWhile Char.isDigit, s.dropWhile Char.isDigit)
  | s => ([], s)

/-- The decimal that a text writes, if it writes one. -/
def ofText? (s : Text) : Option Decimal :=
  let (negative, t) := splitSign s
  let whole := t.takeWhile Char.isDigit
  let (places, rest) := splitPlaces (t.dropWhile Char.isDigit)
  if whole.isEmpty && places.isEmpty then none
  else (exponent? rest).map fun e ↦
    ⟨negative, Numeral.ofDigits (whole ++ places), e - places.length⟩

end Decimal
end Reckon
