import Mathlib.Tactic.LinearCombination
import Reckon.Decimal.Plain
import Reckon.Expression.Operator
import Reckon.Proofs.Decimal.Nearest

/-!
# What the arithmetic of decimals means

Decimals are computed with digit by digit, and their exponents and the signs of zeros depend on how
a number was come by.  Here it is shown what all that means for the numbers: sums, differences and
products of decimals stand for those of the numbers (`toRat_add`, `toRat_sub`, `toRat_mul`), a
remainder for what is left after taking away a whole number of divisors (`toRat_rem`), and a decimal
that was written as a literal for the same number when it is read again (`toRat_value_toLiteral`).
Nothing else about it changes either, except that a positive exponent is multiplied into the
coefficient (`value_toLiteral`).
-/

set_option autoImplicit false

namespace Reckon

/-- The integer nearest to a rational number on the side of zero. -/
def truncate (x : Rat) : Int := if x < 0 then x.ceil else x.floor

theorem truncate_neg (x : Rat) : truncate (-x) = -truncate x := by
  rcases lt_trichotomy x 0 with h | rfl | h
  · rw [truncate, truncate, if_neg (by linarith), if_pos h, Rat.ceil_eq_neg_floor_neg, neg_neg]
  · rfl
  · rw [truncate, truncate, if_pos (neg_lt_zero.2 h), if_neg (not_lt.2 h.le),
      Rat.ceil_eq_neg_floor_neg, neg_neg]

theorem truncate_div (m n : Nat) : truncate ((m : Rat) / n) = (m / n : Nat) := by
  have hnonneg : ¬ (m : Rat) / n < 0 := not_lt.2 (by positivity)
  rw [truncate, if_neg hnonneg]
  exact Rat.floor_natCast_div_natCast m n

namespace Decimal

/-! ## Signs and powers of ten -/

/-- The factor that a sign stands for. -/
def sign (negative : Bool) : Int := if negative then -1 else 1

theorem units_eq (d : Decimal) : d.units = sign d.negative * d.coefficient := by
  rw [units, sign]
  split <;> simp

theorem unitsAt_eq (d : Decimal) (e : Int) : d.unitsAt e = sign d.negative * d.coefficientAt e := by
  rw [unitsAt, sign]
  split <;> simp

theorem sign_mul_sign (b : Bool) : sign b * sign b = 1 := by cases b <;> rfl

theorem sign_bne (a b : Bool) : sign (a != b) = sign a * sign b := by
  cases a <;> cases b <;> rfl

theorem ten_zpow_ne_zero (e : Int) : (10 : Rat) ^ e ≠ 0 := zpow_ne_zero e (by norm_num)

theorem mul_zpow_mul_zpow_neg (x : Rat) (e : Int) : x * (10 : Rat) ^ e * (10 : Rat) ^ (-e) = x := by
  rw [zpow_neg, mul_inv_cancel_right₀ (ten_zpow_ne_zero e)]

theorem mul_zpow_neg_mul_zpow (x : Rat) (e : Int) : x * (10 : Rat) ^ (-e) * (10 : Rat) ^ e = x := by
  rw [zpow_neg, inv_mul_cancel_right₀ (ten_zpow_ne_zero e)]

/-- A decimal may be written with any smaller exponent. -/
theorem unitsAt_mul_zpow {d : Decimal} {e : Int} (h : e ≤ d.exponent) :
    (d.unitsAt e : Rat) * (10 : Rat) ^ e = d.toRat := by
  obtain ⟨n, hn⟩ := Int.le.dest h
  have hpow : (10 : Rat) ^ d.exponent = (10 : Rat) ^ n * (10 : Rat) ^ e := by
    rw [← hn, zpow_add₀ (by norm_num), zpow_natCast, mul_comm]
  have hdiff : (d.exponent - e).toNat = n := by omega
  have hcoefficient : d.coefficientAt e = d.coefficient * 10 ^ n := by
    rw [coefficientAt, hdiff]
    rfl
  rw [unitsAt_eq, hcoefficient, toRat, units_eq, hpow]
  push_cast
  ring

theorem truncate_sign_mul (b : Bool) (x : Rat) : truncate (sign b * x) = sign b * truncate x := by
  cases b
  · simp [sign]
  · simp [sign, truncate_neg]

/-! ## Zero -/

theorem isZero_iff (d : Decimal) : d.isZero = true ↔ d.toRat = 0 := by
  have hcoefficient : d.units = 0 ↔ d.coefficient = 0 := by
    rw [units]
    split <;> omega
  rw [isZero, decide_eq_true_eq, ← hcoefficient, toRat, mul_eq_zero, Int.cast_eq_zero]
  exact ⟨.inl, fun h ↦ h.resolve_right (ten_zpow_ne_zero _)⟩

theorem toRat_of_not_negative {d : Decimal} (h : d.negative = false) :
    d.toRat = d.coefficient * (10 : Rat) ^ d.exponent := by
  rw [toRat, units, h]
  simp

theorem toRat_nonneg {d : Decimal} (h : d.negative = false) : 0 ≤ d.toRat := by
  rw [toRat_of_not_negative h]
  exact mul_nonneg (Nat.cast_nonneg _) (zpow_nonneg (by norm_num) _)

/-- Only zero may have either sign. -/
theorem negative_eq_false_of_pos {d : Decimal} (h : 0 < d.toRat) : d.negative = false := by
  by_contra hnegative
  have hunits : (d.units : Rat) ≤ 0 := by
    rw [units, if_pos (by simpa using hnegative), Int.cast_neg, Int.cast_natCast]
    exact neg_nonpos.2 (Nat.cast_nonneg _)
  exact absurd h (not_lt.2 (mul_nonpos_of_nonpos_of_nonneg hunits (zpow_nonneg (by norm_num) _)))

/-! ## Arithmetic -/

theorem toRat_ofUnits (n e : Int) : (ofUnits n e).toRat = n * (10 : Rat) ^ e := by
  have hunits : (ofUnits n e).units = n := by
    rw [ofUnits, units]
    dsimp only
    by_cases h : n < 0
    · rw [if_pos (decide_eq_true h)]; omega
    · rw [if_neg (by simpa using h)]; omega
  rw [toRat, hunits]
  rfl

/-- A number is rounded if that does not take too many digits. -/
theorem round?_eq_some {x : Rat} {scale : Int}
    (h : Numeral.isOverlong (nearestEven (x * (10 : Rat) ^ scale)).natAbs = false) :
    round? x scale = some (ofUnits (nearestEven (x * (10 : Rat) ^ scale)) (-scale)) := by
  rw [round?]
  simp only [h, Bool.false_eq_true, if_false]

/-- What a number is rounded to, if it is rounded. -/
theorem eq_of_round? {x : Rat} {scale : Int} {d : Decimal} (h : round? x scale = some d) :
    d = ofUnits (nearestEven (x * (10 : Rat) ^ scale)) (-scale) := by
  rw [round?] at h
  split at h
  · cases h
  · cases h
    rfl

theorem units_add (a b : Decimal) :
    (a.add b).units =
      a.unitsAt (min a.exponent b.exponent) + b.unitsAt (min a.exponent b.exponent) := by
  rw [add, units]
  dsimp only
  generalize a.unitsAt _ + b.unitsAt _ = sum
  by_cases hzero : sum = 0
  · subst hzero
    split <;> simp
  · rw [if_neg hzero]
    by_cases h : sum < 0
    · rw [if_pos (decide_eq_true h)]; omega
    · rw [if_neg (by simpa using h)]; omega

theorem toRat_add (a b : Decimal) : (a.add b).toRat = a.toRat + b.toRat := by
  rw [← unitsAt_mul_zpow (min_le_left a.exponent b.exponent),
    ← unitsAt_mul_zpow (min_le_right a.exponent b.exponent), toRat, units_add]
  push_cast
  exact add_mul _ _ _

theorem toRat_neg (d : Decimal) : d.neg.toRat = -d.toRat := by
  have hunits : d.neg.units = -d.units := by
    rw [units_eq, units_eq, neg]
    cases d.negative <;> simp [sign]
  rw [toRat, toRat, hunits]
  push_cast
  exact neg_mul _ _

theorem toRat_sub (a b : Decimal) : (a.sub b).toRat = a.toRat - b.toRat := by
  rw [sub, toRat_add, toRat_neg, sub_eq_add_neg]

theorem toRat_mul (a b : Decimal) : (a.mul b).toRat = a.toRat * b.toRat := by
  rw [toRat, toRat, toRat, units_eq, units_eq, units_eq, mul]
  dsimp only
  rw [sign_bne, zpow_add₀ (by norm_num)]
  push_cast
  ring

/-- A remainder is what is left after taking away a whole number of divisors, and that number is the
quotient without its places. -/
theorem toRat_rem (a b : Decimal) :
    (a.rem b).toRat = a.toRat - b.toRat * truncate (a.toRat / b.toRat) := by
  let e := min a.exponent b.exponent
  let m := a.coefficientAt e
  let n := b.coefficientAt e
  have ha : a.toRat = sign a.negative * (m : Rat) * (10 : Rat) ^ e := by
    rw [← unitsAt_mul_zpow (min_le_left a.exponent b.exponent), unitsAt_eq]
    push_cast
    rfl
  have hb : b.toRat = sign b.negative * (n : Rat) * (10 : Rat) ^ e := by
    rw [← unitsAt_mul_zpow (min_le_right a.exponent b.exponent), unitsAt_eq]
    push_cast
    rfl
  have hrem : (a.rem b).toRat = sign a.negative * ((m % n : Nat) : Rat) * (10 : Rat) ^ e := by
    rw [toRat, units_eq]
    push_cast
    rfl
  have hdiv : a.toRat / b.toRat = sign (a.negative != b.negative) * ((m : Rat) / n) := by
    rw [ha, hb, mul_div_mul_right _ _ (ten_zpow_ne_zero e)]
    cases a.negative <;> cases b.negative <;> simp [sign, neg_div, div_neg]
  have hsign : (sign b.negative : Rat) * sign b.negative = 1 := by
    exact_mod_cast sign_mul_sign b.negative
  have hmod : (m : Rat) = n * (m / n : Nat) + (m % n : Nat) := by
    exact_mod_cast (Nat.div_add_mod m n).symm
  rw [hrem, hdiv, truncate_sign_mul, truncate_div, sign_bne, ha, hb]
  generalize m / n = q at hmod ⊢
  generalize m % n = r at hmod ⊢
  push_cast
  linear_combination -(sign a.negative * (10 : Rat) ^ e) * hmod +
    sign a.negative * (10 : Rat) ^ e * n * q * hsign

/-! ## Literals -/

theorem ofDigits_padded (n : Nat) (s : Text) :
    Numeral.ofDigits (padded n s) = Numeral.ofDigits s := by
  rw [Numeral.ofDigits, Numeral.ofDigits, padded, Nat.ofDigitChars_append,
    Nat.ofDigitChars_replicate_zero, Nat.mul_zero]

theorem value_pointed (negative : Bool) (places : Nat) (s : Text) :
    (pointed negative places s).value = ⟨negative, Numeral.ofDigits s, -places⟩ := by
  rw [Literal.value, length_places_pointed]
  simp only [pointed, List.take_append_drop, ofDigits_padded]

theorem ofDigits_append_zeros (s : Text) (n : Nat) :
    Numeral.ofDigits (s ++ List.replicate n '0') = Numeral.ofDigits s * 10 ^ n := by
  rw [Numeral.ofDigits, Nat.ofDigitChars_append, Nat.ofDigitChars_replicate_zero, mul_comm]
  rfl

/-- A decimal with a positive exponent multiplied into its coefficient. -/
def expanded (d : Decimal) : Decimal :=
  if d.exponent ≤ 0 then d else ⟨d.negative, d.coefficientAt 0, 0⟩

theorem expanded_of_nonpos {d : Decimal} (h : d.exponent ≤ 0) : d.expanded = d := if_pos h

theorem expanded_of_pos {d : Decimal} (h : 0 < d.exponent) :
    d.expanded = ⟨d.negative, d.coefficientAt 0, 0⟩ :=
  if_neg (not_le.2 h)

theorem negative_expanded (d : Decimal) : d.expanded.negative = d.negative := by
  rw [expanded]
  split <;> rfl

theorem toRat_expanded (d : Decimal) : d.expanded.toRat = d.toRat := by
  rcases le_or_gt d.exponent 0 with h | h
  · rw [expanded_of_nonpos h]
  · rw [expanded_of_pos h]
    exact unitsAt_mul_zpow h.le

/-- A literal cannot show a positive exponent, and writes the decimal with the exponent multiplied
into the coefficient. -/
theorem value_toLiteral (d : Decimal) : d.toLiteral.value = d.expanded := by
  obtain ⟨negative, coefficient, exponent⟩ := d
  rcases lt_trichotomy exponent 0 with hneg | rfl | hpos
  · have hexponent : -(exponent.natAbs : Int) = exponent := by omega
    rw [expanded_of_nonpos hneg.le, toLiteral, if_pos hneg, value_pointed, Numeral.ofDigits_digits,
      hexponent]
  · -- no zeros are put behind the digits, whether the coefficient is zero or not
    have hvalue : Literal.value ⟨negative, Numeral.digits coefficient, []⟩ =
        ⟨negative, coefficient, 0⟩ := by
      simp [Literal.value]
    rw [expanded_of_nonpos le_rfl, toLiteral, if_neg (lt_irrefl _)]
    split
    · exact hvalue
    · rw [Int.natAbs_zero, List.replicate_zero, List.append_nil]
      exact hvalue
  · have hexponent : exponent.natAbs = exponent.toNat := by omega
    rw [expanded_of_pos hpos, toLiteral, if_neg (not_lt.2 hpos.le)]
    split
    · next hzero =>
      have hcoefficient : coefficient = 0 := by simpa [isZero] using hzero
      simp [Literal.value, coefficientAt, hcoefficient]
    · simp [Literal.value, coefficientAt, ofDigits_append_zeros, hexponent]

/-- A decimal that is written as a literal and read again stands for the same number. -/
theorem toRat_value_toLiteral (d : Decimal) : d.toLiteral.value.toRat = d.toRat := by
  rw [value_toLiteral, toRat_expanded]

end Decimal

/-- A quotient is the nearest decimal with so many places, if there is one. -/
theorem Operator.eq_of_quotient {scale : Int} {a b d : Decimal} (h : quotient scale a b = .ok d) :
    d = .ofUnits (nearestEven (a.toRat / b.toRat * (10 : Rat) ^ (scale + guardPlaces)))
      (-(scale + guardPlaces)) := by
  rw [quotient] at h
  split at h
  · cases h
  · split at h
    · next hround =>
      cases h
      exact Decimal.eq_of_round? hround
    · cases h

end Reckon
