import Reckon.Proofs.Decimal.Exact

/-!
# Correct rounding

To round a number is to count the units of the last place in it.  The count is the integer nearest
to it, the even one of two that are as near, so the number is missed by half a unit at most
(`abs_nearestEven_mul_zpow_sub_le`).  What is rounded has this count for its coefficient, apart from
the sign, and no other exponent than the one of that place, whatever zeros the count ends in; at
negative scales the units are tens, hundreds and so on.

The one thing that can go wrong is that the count is too long to be written out
(`Decimal.round?_nearest`).
-/

set_option autoImplicit false

namespace Reckon
namespace Decimal

/-- A number lies within half a unit of the last place from what it is rounded to. -/
theorem abs_nearestEven_mul_zpow_sub_le (x : Rat) (scale : Int) :
    |nearestEven (x * (10 : Rat) ^ scale) * (10 : Rat) ^ (-scale) - x| ≤
      (10 : Rat) ^ (-scale) / 2 := by
  let y := x * (10 : Rat) ^ scale
  have hpos : (0 : Rat) < (10 : Rat) ^ (-scale) := zpow_pos (by norm_num) _
  have hdiff : nearestEven y * (10 : Rat) ^ (-scale) - x =
      (nearestEven y - y) * (10 : Rat) ^ (-scale) := by
    rw [sub_mul, mul_zpow_mul_zpow_neg]
  rw [hdiff, abs_mul, abs_of_pos hpos, abs_sub_comm, div_eq_inv_mul, ← one_div]
  exact mul_le_mul_of_nonneg_right (isNearest_nearestEven y).near hpos.le

/-- What is rounded, unless the count of units is too long. -/
theorem round?_eq_ite (x : Rat) (scale : Int) :
    round? x scale =
      if (Numeral.digits (nearestEven (x * (10 : Rat) ^ scale)).natAbs).length ≤ Numeral.maxDigits
      then some (ofUnits (nearestEven (x * (10 : Rat) ^ scale)) (-scale)) else none := by
  rw [round?]
  generalize nearestEven (x * (10 : Rat) ^ scale) = n
  by_cases hlong : Numeral.isOverlong n.natAbs = true
  · rw [if_pos hlong, if_neg (not_le.2 (Numeral.isOverlong_iff.1 hlong))]
  · rw [if_neg hlong, if_pos (not_lt.1 fun h ↦ hlong (Numeral.isOverlong_iff.2 h))]

/-- **Rounding is correct.**  Some integer is nearest to the number of units of the last place in a
number: every other one is farther away, or as far away and then that integer is even.  The number
is rounded to the decimal with this integer for its coefficient, with a minus sign just if it is
negative, and with the exponent of the last place, unless the integer has more digits than may be
written out.  So zero never gets a minus sign, and the number is missed by half a unit at most. -/
theorem round?_nearest (x : Rat) (scale : Int) :
    ∃ u : Int,
      (∀ n : Int, n ≠ u →
        |x * (10 : Rat) ^ scale - u| < |x * (10 : Rat) ^ scale - n| ∨
          |x * (10 : Rat) ^ scale - u| = |x * (10 : Rat) ^ scale - n| ∧ u % 2 = 0) ∧
      (round? x scale =
        if (Numeral.digits u.natAbs).length ≤ Numeral.maxDigits
        then some ⟨decide (u < 0), u.natAbs, -scale⟩ else none) ∧
      ∀ d, round? x scale = some d →
        (d.isZero = true → d.negative = false) ∧ |d.toRat - x| ≤ (10 : Rat) ^ (-scale) / 2 := by
  refine ⟨nearestEven (x * (10 : Rat) ^ scale), isNearest_iff.1 (isNearest_nearestEven _),
    round?_eq_ite x scale, fun d hd ↦ ?_⟩
  rw [eq_of_round? hd]
  constructor
  · intro hzero
    have hunits : (nearestEven (x * (10 : Rat) ^ scale)).natAbs = 0 := of_decide_eq_true hzero
    exact decide_eq_false (by omega)
  · rw [toRat_ofUnits]
    exact abs_nearestEven_mul_zpow_sub_le x scale

/-- Rounded to tens, `-25` is `-20`: a tie, and `-2` is even. -/
theorem round?_nearest_tens :
    round? (-25) (-1) = some ⟨true, 2, 1⟩ ∧
      |toRat ⟨true, 2, 1⟩ - -25| ≤ (10 : Rat) ^ (-(-1 : Int)) / 2 := by
  have hround : round? (-25) (-1) = some ⟨true, 2, 1⟩ := by decide +kernel
  obtain ⟨u, -, -, hbound⟩ := round?_nearest (-25) (-1)
  exact ⟨hround, (hbound _ hround).2⟩

end Decimal
end Reckon
