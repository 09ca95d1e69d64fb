import Reckon.Proofs.Quotient

/-!
# What rounding a quotient twice does to it

A quotient is rounded to four more places than the answer will have, and the answer is rounded from
that.  So it may be missed by a little more than half a unit of the last place, and the answer need
not be the one that the quotient would have been rounded to at once.

Counted in units of the last place, the two roundings are one to a grid of tenths of thousandths and
one to the integers (`nearestTwice`).  They come to another integer than a single rounding if the
number lies beside a midpoint of two integers, so close that the first rounding brings it to that
midpoint, and on the side of the odd one of the two: from the midpoint, the second rounding goes to
the even one (`nearestTwice_ne_iff`).  A midpoint itself is on the finer grid and stays where it is.
-/

set_option autoImplicit false

namespace Reckon

/-! ## Two grids -/

/-- The integer that a number is rounded to when it has been rounded on a finer grid before. -/
def nearestTwice (g : Nat) (x : Rat) : Int := nearestEven (nearestEven (x * g) / g)

section Grid

variable {g : Nat} {x : Rat}

/-- A little more than half a unit away from an integer, a number lies beside the midpoint that is
half a unit away. -/
theorem exists_near_midpoint {e : Int} {r : Rat} (hfar : 1 / 2 < |x - e|)
    (hclose : |x - e| ≤ 1 / 2 + r) :
    ∃ k : Int, |(k : Rat) + 1 / 2 - e| = 1 / 2 ∧ 0 < |x - (k + 1 / 2)| ∧ |x - (k + 1 / 2)| ≤ r := by
  rcases le_total 0 (x - e) with hsign | hsign
  · rw [abs_of_nonneg hsign] at hfar hclose
    have habs : |x - (e + 1 / 2)| = x - e - 1 / 2 := by
      rw [abs_of_pos (by linarith)]
      ring
    exact ⟨e, by norm_num, by linarith, by linarith⟩
  · rw [abs_of_nonpos hsign] at hfar hclose
    have hhalf : ((e - 1 : Int) + 1 / 2 : Rat) = e - 1 / 2 := by
      push_cast
      ring
    have habs : |x - (e - 1 / 2)| = -(x - e) - 1 / 2 := by
      rw [abs_of_neg (by linarith)]
      ring
    refine ⟨e - 1, ?_, ?_, ?_⟩
    · rw [hhalf, sub_sub_cancel_left]
      norm_num
    · rw [hhalf]
      linarith
    · rw [hhalf]
      linarith

theorem nearestTwice_neg (g : Nat) (x : Rat) : nearestTwice g (-x) = -nearestTwice g x := by
  rw [nearestTwice, neg_mul, nearestEven_neg, Int.cast_neg, neg_div, nearestEven_neg, nearestTwice]

variable (hpos : 0 < g) (hfour : 4 ∣ g)

include hpos hfour

/-- A midpoint has an even number on the finer grid. -/
theorem exists_even_midpoint (k : Int) : ∃ M : Int, ((k : Rat) + 1 / 2) * g = M ∧ M % 2 = 0 := by
  obtain ⟨j, rfl⟩ := hfour
  refine ⟨2 * (2 * k + 1) * j, ?_, by rw [mul_assoc, Int.mul_emod_right]⟩
  push_cast
  ring

/-- Close beside a midpoint, the first rounding leads to the midpoint. -/
theorem nearestTwice_of_near_midpoint {k : Int} (h : |x - (k + 1 / 2)| ≤ 1 / (2 * g)) :
    nearestTwice g x = nearestEven (k + 1 / 2) := by
  obtain ⟨M, hM, heven⟩ := exists_even_midpoint hpos hfour k
  have hg : (g : Rat) ≠ 0 := by exact_mod_cast hpos.ne'
  rw [nearestTwice, (nearestEven_mul_eq_iff hpos hM heven).2 h, ← hM, mul_div_cancel_right₀ _ hg]

/-- Where two roundings lead farther than one, they lead to an even integer, from just beyond the
midpoint before it. -/
theorem even_of_nearestEven_lt_nearestTwice (hlt : nearestEven x < nearestTwice g x) :
    nearestTwice g x % 2 = 0 ∧ 1 / 2 < nearestTwice g x - x ∧
      nearestTwice g x - x ≤ 1 / 2 + 1 / (2 * g) := by
  have hx := isNearest_nearestEven x
  have hw : IsNearest (nearestEven (x * g) / g) (nearestTwice g x) := isNearest_nearestEven _
  obtain ⟨M, hM, heven⟩ := exists_even_midpoint hpos hfour (nearestEven x)
  generalize nearestEven x = k at hx hM hlt
  generalize nearestTwice g x = e at hw hlt ⊢
  have hg : (0 : Rat) < g := by exact_mod_cast hpos
  have hstep : (k : Rat) + 1 ≤ e := by exact_mod_cast hlt
  obtain ⟨-, hxhigh⟩ := abs_le.1 hx.near
  obtain ⟨hwlow, -⟩ := abs_le.1 hw.near
  -- the first rounding does not pass the midpoint, and the second one needs it to get there
  have hle : nearestEven (x * g) ≤ M := by
    refine nearestEven_le ?_
    rw [← hM]
    exact mul_le_mul_of_nonneg_right (by linarith) hg.le
  have hwhigh : nearestEven (x * g) / g ≤ (k : Rat) + 1 / 2 := by
    rw [div_le_iff₀ hg, hM]
    exact_mod_cast hle
  have hmid : nearestEven (x * g) / g = (k : Rat) + 1 / 2 := by linarith
  have hfirst : nearestEven (x * g) = M := by
    rw [div_eq_iff hg.ne', hM] at hmid
    exact_mod_cast hmid
  obtain ⟨hclose, -⟩ := abs_le.1 ((nearestEven_mul_eq_iff hpos hM heven).1 hfirst)
  have hnext : e = k + 1 := by
    have : (e : Rat) = k + 1 := by linarith
    exact_mod_cast this
  have htie : e % 2 = 0 := by
    refine hw.even_of_tie ?_
    rw [hmid, hnext]
    push_cast
    norm_num
  have hne : x ≠ k + 1 / 2 := by
    intro heq
    have : k % 2 = 0 := hx.even_of_tie (by rw [heq]; norm_num)
    omega
  have hbelow : x < k + 1 / 2 := lt_of_le_of_ne (by linarith) hne
  rw [hnext]
  push_cast
  exact ⟨hnext ▸ htie, by linarith, by linarith⟩

/-- Two roundings differ from one for the numbers that lie more than half a unit from an even
integer, but no more than half a unit of the finer grid beyond that. -/
theorem nearestTwice_ne_iff :
    nearestTwice g x ≠ nearestEven x ↔
      ∃ e : Int, e % 2 = 0 ∧ 1 / 2 < |x - e| ∧ |x - e| ≤ 1 / 2 + 1 / (2 * g) := by
  constructor
  · intro hne
    rcases lt_or_gt_of_ne hne with hlt | hgt
    · have hneg : nearestEven (-x) < nearestTwice g (-x) := by
        rw [nearestTwice_neg, nearestEven_neg]
        omega
      obtain ⟨heven, hfar, hclose⟩ := even_of_nearestEven_lt_nearestTwice hpos hfour hneg
      rw [nearestTwice_neg] at heven hfar hclose
      push_cast at hfar hclose
      have habs : |x - nearestTwice g x| = x - nearestTwice g x := abs_of_pos (by linarith)
      exact ⟨nearestTwice g x, by omega, by linarith, by linarith⟩
    · obtain ⟨heven, hfar, hclose⟩ := even_of_nearestEven_lt_nearestTwice hpos hfour hgt
      have habs : |x - nearestTwice g x| = -(x - nearestTwice g x) := abs_of_neg (by linarith)
      exact ⟨nearestTwice g x, heven, by linarith, by linarith⟩
  · rintro ⟨e, heven, hfar, hclose⟩ heq
    obtain ⟨k, hhalf, -, hmid⟩ := exists_near_midpoint hfar hclose
    have htwice : nearestTwice g x = e := by
      rw [nearestTwice_of_near_midpoint hpos hfour hmid, nearestEven_eq_iff_of_even heven]
      exact hhalf.le
    have hnear := (isNearest_nearestEven x).near
    rw [← heq, htwice] at hnear
    linarith

end Grid

/-! ## Midpoints at a scale -/

/-- An odd number of half units of the last place. -/
def IsMidpoint (scale : Int) (m : Rat) : Prop :=
  ∃ k : Int, m = (2 * k + 1) * ((10 : Rat) ^ (-scale) / 2)

/-- A number that counts a little more than half a unit from an integer lies beside a midpoint. -/
theorem exists_isMidpoint {scale e : Int} {q r : Rat} (hfar : 1 / 2 < |q * (10 : Rat) ^ scale - e|)
    (hclose : |q * (10 : Rat) ^ scale - e| ≤ 1 / 2 + r) :
    ∃ m, IsMidpoint scale m ∧ 0 < |q - m| ∧ |q - m| ≤ r * (10 : Rat) ^ (-scale) := by
  have hunit : (0 : Rat) < (10 : Rat) ^ (-scale) := zpow_pos (by norm_num) _
  obtain ⟨k, -, hbeside, hmid⟩ := exists_near_midpoint hfar hclose
  have hdiff : q - (2 * k + 1) * ((10 : Rat) ^ (-scale) / 2) =
      (q * (10 : Rat) ^ scale - (k + 1 / 2)) * (10 : Rat) ^ (-scale) := by
    rw [sub_mul, Decimal.mul_zpow_mul_zpow_neg]
    ring
  refine ⟨_, ⟨k, rfl⟩, ?_, ?_⟩
  · rw [hdiff, abs_mul, abs_of_pos hunit]
    exact mul_pos hbeside hunit
  · rw [hdiff, abs_mul, abs_of_pos hunit]
    exact mul_le_mul_of_nonneg_right hmid hunit.le

/-! ## Quotients -/

/-- Rounding to more places takes no fewer digits. -/
theorem Decimal.IsTooLong.of_le {scale scale' : Int} {x : Rat} (h : IsTooLong scale x)
    (hle : scale ≤ scale') : IsTooLong scale' x := by
  rw [isTooLong_iff] at h ⊢
  refine Numeral.isOverlong_of_le (natAbs_nearestEven_mono ?_) h
  have hpow : (10 : Rat) ^ scale ≤ (10 : Rat) ^ scale' := zpow_le_zpow_right₀ (by norm_num) hle
  have hunit : (0 : Rat) < (10 : Rat) ^ scale := zpow_pos (by norm_num) _
  rw [abs_mul, abs_mul, abs_of_pos hunit, abs_of_pos (hunit.trans_le hpow)]
  exact mul_le_mul_of_nonneg_left hpow (abs_nonneg x)

theorem Decimal.ofUnits_inj {m n e : Int} : ofUnits m e = ofUnits n e ↔ m = n := by
  refine ⟨fun h ↦ ?_, fun h ↦ by rw [h]⟩
  have hvalue : (m : Rat) * (10 : Rat) ^ e = n * (10 : Rat) ^ e := by
    rw [← toRat_ofUnits, h, toRat_ofUnits]
  exact_mod_cast mul_right_cancel₀ (ten_zpow_ne_zero e) hvalue

variable {scale : Int} {x : Rat}

/-- What a quotient is answered as counts its units rounded twice. -/
theorem Answer.value_ofRat_guarded (scale : Int) (x : Rat) :
    (ofRat scale (guarded scale x)).value =
      .ofUnits (nearestTwice 10000 (x * (10 : Rat) ^ scale)) (-scale) := by
  rw [ofRat, guarded_mul_zpow, nearestTwice, zpow_add_guardPlaces, mul_assoc]

theorem abs_toRat_ofRat_guarded_sub_le (scale : Int) (x : Rat) :
    |(Answer.ofRat scale (guarded scale x)).value.toRat - x| ≤
      ((10 : Rat) ^ (-scale) + (10 : Rat) ^ (-(scale + Operator.guardPlaces))) / 2 := by
  have hsecond := Decimal.abs_nearestEven_mul_zpow_sub_le (guarded scale x) scale
  have hfirst := Decimal.abs_nearestEven_mul_zpow_sub_le x (scale + Operator.guardPlaces)
  rw [← guarded] at hfirst
  rw [Answer.ofRat, Decimal.toRat_ofUnits]
  calc
    _ ≤ _ := abs_sub_le _ (guarded scale x) x
    _ ≤ (10 : Rat) ^ (-scale) / 2 + (10 : Rat) ^ (-(scale + Operator.guardPlaces)) / 2 :=
      add_le_add hsecond hfirst
    _ = _ := (add_div _ _ _).symm

/-- **Rounding a quotient twice.**  A quotient of two numbers, the second one not zero, is a fault
if it takes too many digits to round it to the guard places.  Otherwise the answer misses it by no
more than half a unit of the last place and half a unit of the last guard place together, and is
what the quotient would have been rounded to at once, unless the quotient lies beside a midpoint and
no farther from it than half a unit of the last guard place.  The two differ just if it lies there
on the side of the odd neighbour, which is to say that it lies more than half a unit from an even
number of units. -/
theorem evaluate_quotient {a b : Operand} (hb : b.toRat ≠ 0) (scale : Int) :
    let q := a.toRat / b.toRat
    let outcome := (evaluate scale (a.quotientText b)).outcome
    (Decimal.IsTooLong (scale + Operator.guardPlaces) q → outcome = .error .overlong) ∧
      (¬ Decimal.IsTooLong (scale + Operator.guardPlaces) q →
        ∃ answer, outcome = .ok answer ∧
          |answer.value.toRat - q| ≤
            ((10 : Rat) ^ (-scale) + (10 : Rat) ^ (-(scale + Operator.guardPlaces))) / 2 ∧
          (Decimal.round? q scale = some answer.value ∨
            ∃ m, IsMidpoint scale m ∧ 0 < |q - m| ∧
              |q - m| ≤ (10 : Rat) ^ (-(scale + Operator.guardPlaces)) / 2) ∧
          (Decimal.round? q scale ≠ some answer.value ↔
            ∃ e : Int, e % 2 = 0 ∧ 1 / 2 < |q * (10 : Rat) ^ scale - e| ∧
              |q * (10 : Rat) ^ scale - e| ≤ 1 / 2 + 1 / 20000)) := by
  intro q outcome
  refine ⟨Operand.outcome_evaluate_of_isTooLong hb, fun hshort ↦
    ⟨_, Operand.outcome_evaluate_of_not_isTooLong hb hshort,
      abs_toRat_ofRat_guarded_sub_le scale q, ?_⟩⟩
  have hdirect : ¬ Decimal.IsTooLong scale q := fun h ↦
    hshort (h.of_le (by norm_num [Operator.guardPlaces]))
  rw [Decimal.isTooLong_iff, Bool.not_eq_true] at hdirect
  have hdiffer : Decimal.round? q scale ≠ some (Answer.ofRat scale (guarded scale q)).value ↔
      ∃ e : Int, e % 2 = 0 ∧ 1 / 2 < |q * (10 : Rat) ^ scale - e| ∧
        |q * (10 : Rat) ^ scale - e| ≤ 1 / 2 + 1 / 20000 := by
    have hgrid := @nearestTwice_ne_iff 10000 (q * (10 : Rat) ^ scale) (by decide) (by decide)
    have hbound : (1 : Rat) / (2 * (10000 : Nat)) = 1 / 20000 := by norm_num
    rw [hbound] at hgrid
    rw [← hgrid, Decimal.round?_eq_some hdirect, Answer.value_ofRat_guarded, ne_eq,
      Option.some.injEq, Decimal.ofUnits_inj]
    exact not_congr eq_comm
  refine ⟨?_, hdiffer⟩
  by_cases hsame : Decimal.round? q scale = some (Answer.ofRat scale (guarded scale q)).value
  · exact .inl hsame
  · obtain ⟨e, -, hfar, hclose⟩ := hdiffer.1 hsame
    obtain ⟨m, hm, hbeside, hmid⟩ := exists_isMidpoint hfar hclose
    exact .inr ⟨m, hm, hbeside, hmid.trans_eq (zpow_neg_add_guardPlaces scale).symm⟩

/-- `149999 / 100000` is rounded to `1.5000` first, and to `2` from there; at once it would have
been rounded to `1`. -/
theorem evaluate_quotient_beyond_half :
    (Operand.ofInt 100000).toRat ≠ 0 ∧
      ¬ Decimal.IsTooLong (0 + Operator.guardPlaces) (149999 / 100000) ∧
      ∃ answer,
        (evaluate 0 ((Operand.ofInt 149999).quotientText (.ofInt 100000))).outcome = .ok answer ∧
          |answer.value.toRat - 149999 / 100000| ≤
            ((10 : Rat) ^ (-0 : Int) + (10 : Rat) ^ (-(0 + Operator.guardPlaces))) / 2 ∧
          Decimal.round? (149999 / 100000) 0 = some ⟨false, 1, 0⟩ ∧
          Decimal.round? (149999 / 100000) 0 ≠ some answer.value := by
  have hne : (Operand.ofInt 100000).toRat ≠ 0 := by
    rw [Operand.toRat_ofInt]
    norm_num
  have hquotient :
      (Operand.ofInt 149999).toRat / (Operand.ofInt 100000).toRat = 149999 / 100000 := by
    rw [Operand.toRat_ofInt, Operand.toRat_ofInt]
    norm_num
  have hshort : ¬ Decimal.IsTooLong (0 + Operator.guardPlaces) (149999 / 100000) := by
    rw [Decimal.isTooLong_iff]
    decide +kernel
  obtain ⟨-, htwice⟩ := @evaluate_quotient (.ofInt 149999) (.ofInt 100000) hne 0
  rw [hquotient] at htwice
  obtain ⟨answer, houtcome, hbound, -, hdiffer⟩ := htwice hshort
  refine ⟨hne, hshort, answer, houtcome, hbound, by decide +kernel, hdiffer.2 ⟨2, rfl, ?_, ?_⟩⟩
  · norm_num [abs_of_neg]
  · norm_num [abs_of_neg]

end Reckon
