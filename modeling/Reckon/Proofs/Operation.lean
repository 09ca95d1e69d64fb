import Reckon.Proofs.Decimal.Rounding
import Reckon.Proofs.Faults

/-!
# What an operation comes to

An operation is named by a text and done to two decimals, whatever their signs and exponents.  Sums,
differences and products stand for those of the numbers, and no digit of them is lost.  A remainder
is what is left of the first number when a whole number of the second is taken away: less than the
second, and nothing or on the same side of zero as the first (`IsRemainder`).  It is so because the
whole number is the quotient without its places (`truncate_cases`).  A quotient is rounded to four
places more than the answer will have.

An operation comes to nothing for one of four reasons, and what is reported tells of which
(`Operator.Refuses`).  A divisor is zero if its digits are, whatever its sign and exponent.
-/

set_option autoImplicit false

namespace Reckon

/-! ## Remainders -/

/-- What is left of a number without its places lies on the same side of zero as the number, and is
less than one. -/
theorem truncate_cases (x : Rat) :
    (0 ≤ x ∧ 0 ≤ x - truncate x ∧ x - truncate x < 1) ∨
      (x < 0 ∧ x - truncate x ≤ 0 ∧ -1 < x - truncate x) := by
  rw [truncate]
  split
  · next hneg =>
    have hle : x ≤ x.ceil := Rat.le_ceil
    have hlt : (x.ceil : Rat) < x + 1 := Rat.ceil_lt
    exact .inr ⟨hneg, by linarith, by linarith⟩
  · next hnonneg =>
    have hle : (x.floor : Rat) ≤ x := Rat.floor_le x
    have hlt : x - 1 < x.floor := Rat.lt_floor
    exact .inl ⟨not_lt.1 hnonneg, by linarith, by linarith⟩

/-- What is left of a number when a whole number of divisors is taken away: less than the divisor,
and nothing or a number with the sign of the first. -/
structure IsRemainder (x y rest : Rat) : Prop where
  taken : ∃ q : Int, x = y * q + rest
  small : |rest| < |y|
  same_sign : rest = 0 ∨ 0 < x * rest

theorem isRemainder_truncate {x y : Rat} (hy : y ≠ 0) :
    IsRemainder x y (x - y * truncate (x / y)) := by
  have hx : x = y * (x / y) := (mul_div_cancel₀ x hy).symm
  generalize x / y = t at hx ⊢
  have hrest : x - y * truncate t = y * (t - truncate t) := by rw [hx, mul_sub]
  refine ⟨⟨truncate t, by ring⟩, ?_, ?_⟩
  · have hless : |t - truncate t| < 1 := by
      rw [abs_lt]
      rcases truncate_cases t with ⟨-, hlow, hhigh⟩ | ⟨-, hhigh, hlow⟩
      · exact ⟨by linarith, hhigh⟩
      · exact ⟨hlow, by linarith⟩
    rw [hrest, abs_mul]
    exact mul_lt_of_lt_one_right (abs_pos.2 hy) hless
  · by_cases hzero : t - truncate t = 0
    · exact .inl (by rw [hrest, hzero, mul_zero])
    · have hpos : 0 < t * (t - truncate t) := by
        rcases truncate_cases t with ⟨hnonneg, hlow, -⟩ | ⟨hneg, hhigh, -⟩
        · have ht : t ≠ 0 := by
            rintro rfl
            exact hzero (sub_self 0)
          exact mul_pos (lt_of_le_of_ne hnonneg ht.symm) (lt_of_le_of_ne hlow (Ne.symm hzero))
        · exact mul_pos_of_neg_of_neg hneg (lt_of_le_of_ne hhigh hzero)
      have hproduct : x * (x - y * truncate t) = y ^ 2 * (t * (t - truncate t)) := by
        rw [hrest, hx]
        ring
      exact .inr (by rw [hproduct]; positivity)

/-! ## Operations by name -/

namespace Operator

variable {scale : Int} {a b : Decimal} {symbol : Text} {e : Fault} {op : Operator}

theorem ofText?_eq_some_iff : ofText? symbol = some op ↔ symbol = [op.symbol] := by
  constructor
  · intro h
    have hop := List.find?_some h
    exact of_decide_eq_true hop
  · rintro rfl
    cases op <;> rfl

theorem applyNamed_symbol (op : Operator) :
    applyNamed scale [op.symbol] a b = op.apply scale a b := by
  rw [applyNamed, ofText?_eq_some_iff.2 rfl]

/-- Why an operation that a text names comes to nothing, and the kind of the report on it. -/
inductive Refuses (scale : Int) (a b : Decimal) : Text → Fault → Report.Kind → Prop where
  /-- Nothing can be divided by zero. -/
  | division (hb : b.toRat = 0) : Refuses scale a b ['/'] .divisionByZero .division
  /-- There is no remainder by zero either. -/
  | remainder (hb : b.toRat = 0) : Refuses scale a b ['%'] .remainderByZero .division
  /-- A quotient takes too many digits. -/
  | quotient (hb : b.toRat ≠ 0)
      (hlong : Decimal.IsTooLong (scale + guardPlaces) (a.toRat / b.toRat)) :
      Refuses scale a b ['/'] .overlong .general
  /-- The text names no operation. -/
  | unknown {symbol : Text} (hsymbol : symbol ∉ [['/'], ['*'], ['+'], ['-'], ['%']]) :
      Refuses scale a b symbol (.unknownOperator symbol) .calculation

theorem ofText?_eq_none_iff :
    ofText? symbol = none ↔ symbol ∉ [['/'], ['*'], ['+'], ['-'], ['%']] := by
  have hsymbols : [['/'], ['*'], ['+'], ['-'], ['%']] = all.map fun op ↦ [op.symbol] := rfl
  rw [hsymbols, ofText?, List.find?_eq_none, List.mem_map, not_exists]
  simp only [decide_eq_true_eq, not_and]
  exact forall₂_congr fun _ _ ↦ not_congr eq_comm

theorem applyNamed_eq_error_iff :
    applyNamed scale symbol a b = .error e ↔ ∃ kind, Refuses scale a b symbol e kind := by
  constructor
  · intro h
    rw [applyNamed] at h
    split at h
    · next op hop =>
      rw [ofText?_eq_some_iff] at hop
      subst hop
      cases apply_eq_error_iff.1 h with
      | division hb => exact ⟨_, .division hb⟩
      | remainder hb => exact ⟨_, .remainder hb⟩
      | quotient hb hlong => exact ⟨_, .quotient hb hlong⟩
    · next hnone =>
      cases h
      exact ⟨_, .unknown (ofText?_eq_none_iff.1 hnone)⟩
  · rintro ⟨kind, hrefuses⟩
    cases hrefuses with
    | division hb => exact (applyNamed_symbol .divide).trans (apply_eq_error_iff.2 (.division hb))
    | remainder hb =>
      exact (applyNamed_symbol .remainder).trans (apply_eq_error_iff.2 (.remainder hb))
    | quotient hb hlong =>
      exact (applyNamed_symbol .divide).trans (apply_eq_error_iff.2 (.quotient hb hlong))
    | unknown hsymbol => rw [applyNamed, ofText?_eq_none_iff.2 hsymbol]

theorem quotient_eq_ok (hb : b.toRat ≠ 0)
    (hshort : ¬ Decimal.IsTooLong (scale + guardPlaces) (a.toRat / b.toRat)) :
    quotient scale a b = .ok (.ofUnits
      (nearestEven (a.toRat / b.toRat * (10 : Rat) ^ (scale + guardPlaces)))
      (-(scale + guardPlaces))) := by
  rw [Decimal.isTooLong_iff, Bool.not_eq_true] at hshort
  rw [quotient, if_neg fun h ↦ hb ((Decimal.isZero_iff b).1 h), Decimal.round?_eq_some hshort]

/-- **Operations are exact.**  A sum, a difference and a product of two decimals stand for the exact
ones, a remainder by a divisor that is not zero for what is left of the first number, and a quotient
for the multiple of the last guard place that is nearest to the exact quotient, ties to the even
multiple, if the number of units is not too long.  Nothing else can go wrong except that a divisor
is zero or that no operation is named, and each of these is reported as what it is. -/
theorem outcomes_of_applyNamed (scale : Int) (a b : Decimal) :
    (∃ d, applyNamed scale ['+'] a b = .ok d ∧ d.toRat = a.toRat + b.toRat) ∧
      (∃ d, applyNamed scale ['-'] a b = .ok d ∧ d.toRat = a.toRat - b.toRat) ∧
      (∃ d, applyNamed scale ['*'] a b = .ok d ∧ d.toRat = a.toRat * b.toRat) ∧
      (b.toRat ≠ 0 →
        ∃ d, applyNamed scale ['%'] a b = .ok d ∧ IsRemainder a.toRat b.toRat d.toRat) ∧
      (b.toRat ≠ 0 → ∃ k : Int,
        IsNearest (a.toRat / b.toRat * (10 : Rat) ^ (scale + guardPlaces)) k ∧
          ((Numeral.digits k.natAbs).length ≤ Numeral.maxDigits →
            ∃ d, applyNamed scale ['/'] a b = .ok d ∧
              d.toRat = k * (10 : Rat) ^ (-(scale + guardPlaces)))) ∧
      (∀ symbol e, applyNamed scale symbol a b = .error e ↔
        ∃ kind, Refuses scale a b symbol e kind) ∧
      ∀ symbol e kind, Refuses scale a b symbol e kind → (Report.ofFault e).kind = kind := by
  refine ⟨⟨_, applyNamed_symbol .plus, Decimal.toRat_add a b⟩,
    ⟨_, applyNamed_symbol .minus, Decimal.toRat_sub a b⟩,
    ⟨_, applyNamed_symbol .times, Decimal.toRat_mul a b⟩,
    fun hb ↦ ?_, fun hb ↦ ?_, fun symbol e ↦ applyNamed_eq_error_iff, ?_⟩
  · have hrem : applyNamed scale ['%'] a b = .ok (a.rem b) :=
      (applyNamed_symbol .remainder).trans (if_neg fun h ↦ hb ((Decimal.isZero_iff b).1 h))
    refine ⟨a.rem b, hrem, ?_⟩
    rw [Decimal.toRat_rem]
    exact isRemainder_truncate hb
  · refine ⟨_, isNearest_nearestEven _, fun hshort ↦ ?_⟩
    have hquotient := quotient_eq_ok hb (not_lt.2 hshort)
    exact ⟨_, (applyNamed_symbol .divide).trans hquotient, Decimal.toRat_ofUnits _ _⟩
  · rintro symbol e kind (_ | _ | _ | _) <;> rfl

/-- There is a remainder of `-7.5` by two, and a half of it, which is `-3.75`; there is no remainder
by `-0E+5`. -/
theorem outcomes_of_applyNamed_negative :
    Decimal.toRat ⟨false, 2, 0⟩ ≠ 0 ∧
      (∃ d, applyNamed 2 ['%'] ⟨true, 75, -1⟩ ⟨false, 2, 0⟩ = .ok d ∧
        IsRemainder (-15 / 2) 2 d.toRat) ∧
      (∃ d, applyNamed 2 ['/'] ⟨true, 75, -1⟩ ⟨false, 2, 0⟩ = .ok d ∧ d.toRat = -15 / 4) ∧
      ∃ e, applyNamed 2 ['%'] ⟨true, 75, -1⟩ ⟨true, 0, 5⟩ = .error e ∧
        (Report.ofFault e).kind = .division := by
  have ha : Decimal.toRat ⟨true, 75, -1⟩ = -15 / 2 := by norm_num [Decimal.toRat, Decimal.units]
  have hb : Decimal.toRat ⟨false, 2, 0⟩ = 2 := by norm_num [Decimal.toRat, Decimal.units]
  have hne : Decimal.toRat ⟨false, 2, 0⟩ ≠ 0 := by rw [hb]; norm_num
  obtain ⟨-, -, -, hremainder, hquotient, -⟩ :=
    outcomes_of_applyNamed 2 ⟨true, 75, -1⟩ ⟨false, 2, 0⟩
  obtain ⟨-, -, -, -, -, herror, hkind⟩ := outcomes_of_applyNamed 2 ⟨true, 75, -1⟩ ⟨true, 0, 5⟩
  have hzero : Refuses 2 ⟨true, 75, -1⟩ ⟨true, 0, 5⟩ ['%'] .remainderByZero .division :=
    .remainder ((Decimal.isZero_iff _).1 rfl)
  refine ⟨hne, ?_, ?_, _, (herror _ _).2 ⟨_, hzero⟩, hkind _ _ _ hzero⟩
  · have h := hremainder hne
    rwa [ha, hb] at h
  · obtain ⟨k, hk, h⟩ := hquotient hne
    have hunits : k = -3750000 := by
      rw [← nearestEven_eq_iff.2 hk, ha, hb]
      decide +kernel
    obtain ⟨d, hd, hvalue⟩ := h (by rw [hunits]; decide +kernel)
    refine ⟨d, hd, ?_⟩
    rw [hvalue, hunits]
    norm_num [guardPlaces]

end Operator
end Reckon
