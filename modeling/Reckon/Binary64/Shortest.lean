import Reckon.Binary64.Basic
import Reckon.Decimal.Plain
import Reckon.Decimal.Reader

/-!
# The shortest text of a binary number

A binary number is written with the fewest significant digits from which it can be read back; of the
decimals with that many digits that read back, the one nearest to the number is taken.  Seventeen
digits are always enough, so `shortest` tries one digit, then two, and so on.

`text` lays the digits out: positionally, always with a point, while the point falls within sixteen
digits or no more than three zeros follow it, and with a power of ten otherwise.
-/

set_option autoImplicit false

namespace Reckon
namespace Binary64

/-! ## Digits -/

/-- The exponent of the largest power of ten that is at most `x`, for a positive `x`. -/
def floorLog10 (x : Rat) : Int :=
  let e : Int := ((Numeral.digits x.num.natAbs).length : Int) - (Numeral.digits x.den).length
  if (10 : Rat) ^ e ≤ x then e else e - 1

/-- The decimals next to `x` that count in `10 ^ e`, the nearer one first. -/
def neighbours (x : Rat) (e : Int) : List Decimal :=
  let near := nearestEven (x / (10 : Rat) ^ e)
  let far := if (near : Rat) < x / (10 : Rat) ^ e then near + 1 else near - 1
  [Decimal.ofUnits near e, Decimal.ofUnits far e]

/-- The decimal with the fewest significant digits, from `n` on, that reads back as `target`, which
is the number nearest to `x`. -/
def shortestFrom (target : Binary64) (x : Rat) (n : Nat) : Nat → Decimal
  | 0 => Decimal.ofUnits (nearestEven x) 0
  | tries + 1 =>
    match (neighbours x (floorLog10 x - (n - 1 : Nat))).find? fun d ↦ ofDecimal d = target with
    | some d => d
    | none => shortestFrom target x (n + 1) tries

/-- The most significant digits that a number needs to be read back. -/
def enoughDigits : Nat := 17

/-- The shortest decimal that reads back as the positive number `significand · 2 ^ exponent`. -/
def shortest (significand : Nat) (exponent : Int) : Decimal :=
  shortestFrom (.finite false significand exponent) (magnitude significand exponent) 1 enoughDigits

/-! ## Layout -/

/-- The zeros that may follow the point before a number is written with a power of ten. -/
def maxLeadingZeros : Int := 3

/-- The digits that may stand before the point before a number is written with a power of ten. -/
def maxWhole : Int := 16

/-- Digits without the zeros at their end. -/
def significant (s : Text) : Text := (s.reverse.dropWhile (· = '0')).reverse

/-- Digits with the point behind the first `point` of them, zeros filling the places that have no
digit, and at least one digit on either side. -/
def positional (s : Text) (point : Int) : Text :=
  let shifted := List.replicate (1 - point).toNat '0' ++ s ++
    List.replicate (point + 1 - s.length).toNat '0'
  let whole := max point 1
  shifted.take whole.toNat ++ '.' :: shifted.drop whole.toNat

/-- A power of ten: `e`, its sign, and at least two digits. -/
def powerText (e : Int) : Text :=
  'e' :: (if e < 0 then '-' else '+') :: Decimal.padded 2 (Numeral.digits e.natAbs)

/-- Digits with the point behind the first of them, where more follow, and a power of ten. -/
def exponential (s : Text) (point : Int) : Text :=
  match s with
  | c :: d :: s => c :: '.' :: d :: s ++ powerText (point - 1)
  | s => s ++ powerText (point - 1)

/-- Digits laid out with the point behind the first `point` of them. -/
def layOut (s : Text) (point : Int) : Text :=
  if -maxLeadingZeros ≤ point ∧ point ≤ maxWhole then positional s point else exponential s point

/-- A binary number as it is written. -/
def text : Binary64 → Text
  | .nan => "nan".toList
  | .infinite negative => Literal.signText negative ++ "inf".toList
  | .finite negative 0 _ => Literal.signText negative ++ "0.0".toList
  | .finite negative significand exponent =>
    let d := shortest significand exponent
    let s := Numeral.digits d.coefficient
    Literal.signText negative ++ layOut (significant s) (s.length + d.exponent)

/-! ## Reading -/

/-- The binary number that a text means. -/
def ofText? (s : Text) : Option Binary64 :=
  let (negative, t) := Decimal.splitSign s
  if t = "nan".toList then some .nan
  else if t = "inf".toList then some (.infinite negative)
  else (Decimal.ofText? s).map ofDecimal

end Binary64
end Reckon
