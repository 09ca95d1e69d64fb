import Reckon.Proofs.Blanks
import Reckon.Proofs.Operation

/-!
# Which quotients are answered as exact

A quotient is rounded twice: when it is taken, to four places more than the answer will have, and
when the answer is given.  The sign in front of the answer tells about the second rounding only.  So
an equals sign does not mean that the quotient is what stands behind it: `1 / 10000000` is `= 0.00`,
since it has become zero before it is asked whether rounding changes it.

What the sign does mean is `IsAlmostExact`: the quotient lies within half a unit of the last of
those four places from a number with as many places as the answer.  It is answered with an equals
sign if it does and with an approximation sign if not; the first answer is right just for the
quotients that are such numbers themselves, and the second one always (`calculate_quotient_iff`).
-/

set_option autoImplicit false

namespace Reckon

variable {scale : Int} {x : Rat}

/-! ## Numbers with so many places -/

/-- A number can be written with so many places, or with so many zeros before the point if that is a
negative number. -/
def HasPlaces (scale : Int) (x : Rat) : Prop := ∃ k : Int, x * (10 : Rat) ^ scale = k

namespace Answer

/-- An answer has the places that it is asked for. -/
theorem hasPlaces_ofRat (scale : Int) (x : Rat) : HasPlaces scale (ofRat scale x).value.toRat := by
  refine ⟨nearestEven (x * (10 : Rat) ^ scale), ?_⟩
  rw [ofRat, Decimal.toRat_ofUnits, Decimal.mul_zpow_neg_mul_zpow]

theorem toRat_ofRat_eq_iff : (ofRat scale x).value.toRat = x ↔ HasPlaces scale x := by
  constructor
  · intro h
    rw [← h]
    exact hasPlaces_ofRat scale x
  · rintro ⟨k, hk⟩
    rw [ofRat, Decimal.toRat_ofUnits, hk, nearestEven_intCast, ← hk, Decimal.mul_zpow_mul_zpow_neg]

/-- An answer is marked as rounded if the number has more places. -/
theorem rounded_ofRat_iff : (ofRat scale x).rounded = true ↔ ¬ HasPlaces scale x := by
  rw [← toRat_ofRat_eq_iff]
  exact decide_eq_true_iff

end Answer

/-! ## Numbers that are rounded twice -/

/-- A number lies within half a unit of the last guard place from one that has so many places. -/
def IsAlmostExact (scale : Int) (x : Rat) : Prop :=
  ∃ k : Int, |x * (10 : Rat) ^ scale - k| ≤ 1 / 20000

/-- What a quotient is rounded to before the answer is. -/
def guarded (scale : Int) (x : Rat) : Rat :=
  nearestEven (x * (10 : Rat) ^ (scale + Operator.guardPlaces)) *
    (10 : Rat) ^ (-(scale + Operator.guardPlaces))

theorem zpow_add_guardPlaces (scale : Int) :
    (10 : Rat) ^ (scale + Operator.guardPlaces) = (10 : Rat) ^ scale * (10000 : Nat) := by
  rw [zpow_add₀ (by norm_num)]
  norm_num [Operator.guardPlaces]

theorem guarded_mul_zpow (scale : Int) (x : Rat) :
    guarded scale x * (10 : Rat) ^ scale =
      nearestEven (x * (10 : Rat) ^ (scale + Operator.guardPlaces)) / (10000 : Nat) := by
  rw [guarded, eq_div_iff (by norm_num)]
  generalize nearestEven (x * (10 : Rat) ^ (scale + Operator.guardPlaces)) = n
  rw [mul_assoc, ← zpow_add_guardPlaces, Decimal.mul_zpow_neg_mul_zpow]

theorem HasPlaces.isAlmostExact (h : HasPlaces scale x) : IsAlmostExact scale x := by
  obtain ⟨k, hk⟩ := h
  refine ⟨k, ?_⟩
  rw [hk, sub_self, abs_zero]
  norm_num

/-- The first rounding brings a number to one with so many places if it is almost exact. -/
theorem hasPlaces_guarded_iff : HasPlaces scale (guarded scale x) ↔ IsAlmostExact scale x := by
  have hdvd := @dvd_nearestEven_iff (x * (10 : Rat) ^ scale) 10000 (by norm_num) (by norm_num)
  rw [mul_assoc, ← zpow_add_guardPlaces] at hdvd
  have hbound : (1 : Rat) / (2 * (10000 : Nat)) = 1 / 20000 := by norm_num
  rw [hbound] at hdvd
  rw [IsAlmostExact, ← hdvd, HasPlaces, guarded_mul_zpow]
  refine exists_congr fun k ↦ ?_
  rw [div_eq_iff (by norm_num), mul_comm (k : Rat)]
  exact_mod_cast Iff.rfl

/-- It leaves a number as it is if that has so many places already. -/
theorem HasPlaces.guarded_eq (h : HasPlaces scale x) : guarded scale x = x := by
  obtain ⟨k, hk⟩ := h
  have hinteger : x * (10 : Rat) ^ (scale + Operator.guardPlaces) = (k * 10000 : Int) := by
    rw [zpow_add_guardPlaces, ← mul_assoc, hk]
    norm_num
  rw [guarded, hinteger, nearestEven_intCast, ← hinteger, Decimal.mul_zpow_mul_zpow_neg]

theorem guarded_eq_iff (h : IsAlmostExact scale x) : guarded scale x = x ↔ HasPlaces scale x := by
  constructor
  · intro heq
    rw [← heq]
    exact hasPlaces_guarded_iff.2 h
  · exact HasPlaces.guarded_eq

theorem zpow_neg_add_guardPlaces (scale : Int) :
    (10 : Rat) ^ (-(scale + Operator.guardPlaces)) / 2 = 1 / 20000 * (10 : Rat) ^ (-scale) := by
  rw [zpow_neg, zpow_neg, zpow_add_guardPlaces, mul_inv]
  push_cast
  ring

/-- It never changes a number by more than half a unit of the last guard place. -/
theorem abs_guarded_sub_le (scale : Int) (x : Rat) :
    |guarded scale x - x| ≤ (10 : Rat) ^ (-scale) / 20000 := by
  rw [div_eq_inv_mul, ← one_div, ← zpow_neg_add_guardPlaces]
  exact Decimal.abs_nearestEven_mul_zpow_sub_le x (scale + Operator.guardPlaces)

/-- The second rounding takes no more digits than the first one. -/
theorem isOverlong_guarded
    (h : ¬ Decimal.IsTooLong (scale + Operator.guardPlaces) x) :
    Numeral.isOverlong (nearestEven (guarded scale x * (10 : Rat) ^ scale)).natAbs = false := by
  rw [Decimal.isTooLong_iff] at h
  rw [guarded_mul_zpow]
  generalize nearestEven (x * (10 : Rat) ^ (scale + Operator.guardPlaces)) = n at h ⊢
  have hle : |(n : Rat) / (10000 : Nat)| ≤ n.natAbs := by
    have hn : (n.natAbs : Rat) = |(n : Rat)| := by rw [Nat.cast_natAbs, Int.cast_abs]
    rw [abs_div, hn]
    exact div_le_self (abs_nonneg _) (by norm_num)
  refine Bool.eq_false_iff.2 fun hlong ↦ h ?_
  exact Numeral.isOverlong_of_le (natAbs_nearestEven_le hle) hlong

/-! ## Evaluating a quotient -/

namespace Operand

/-- The quotient of two literals as it is written. -/
def quotientText (a b : Operand) : Text := a.1.text ++ (" / ".toList ++ b.1.text)

theorem value_quotient (a b : Operand) (h : Operator.divide ≠ .remainder) :
    (⟨a, [(.spaced .divide h, b)]⟩ : Row Operand).value (apply scale) = apply scale .divide a b := by
  have hop : (Joint.spaced .divide h).operator = .divide := rfl
  rw [Row.value, Operator.all, Row.workOffAll, Row.workOff, if_pos hop]
  dsimp only
  cases apply scale .divide a b <;> rfl

theorem outcome_evaluate_quotientText (a b : Operand) :
    (evaluate scale (quotientText a b)).outcome =
      (Operator.quotient scale a.1.value b.1.value).bind fun d ↦ conclude scale d.plain := by
  have hop : Operator.divide ≠ .remainder := by decide
  have htext : quotientText a b = (⟨a, [(.spaced .divide hop, b)]⟩ : Row Operand).text := by
    simp [quotientText, Row.text, Row.textBy, Row.tailBy, Joint.text, Joint.spaced, Operator.symbol]
  rw [htext, Row.outcome_evaluate_text, value_quotient, apply]
  cases h : Operator.quotient scale a.1.value b.1.value with
  | error e => rw [Operator.apply, h]; rfl
  | ok d => rw [Operator.apply, h]; rfl

variable {a b : Operand} (hb : b.toRat ≠ 0)

include hb

/-- A quotient that takes too many digits is a fault. -/
theorem outcome_evaluate_of_isTooLong
    (h : Decimal.IsTooLong (scale + Operator.guardPlaces) (a.toRat / b.toRat)) :
    (evaluate scale (quotientText a b)).outcome = .error .overlong := by
  rw [outcome_evaluate_quotientText, Operator.quotient_eq_error_iff.2 (.quotient hb h)]
  rfl

/-- Any other quotient is rounded twice. -/
theorem outcome_evaluate_of_not_isTooLong
    (h : ¬ Decimal.IsTooLong (scale + Operator.guardPlaces) (a.toRat / b.toRat)) :
    (evaluate scale (quotientText a b)).outcome =
      .ok (.ofRat scale (guarded scale (a.toRat / b.toRat))) := by
  let d := Decimal.ofUnits
    (nearestEven (a.toRat / b.toRat * (10 : Rat) ^ (scale + Operator.guardPlaces)))
    (-(scale + Operator.guardPlaces))
  have hquotient : Operator.quotient scale a.1.value b.1.value = .ok d :=
    Operator.quotient_eq_ok hb h
  let y : Operand := ⟨d.toLiteral, d.isProper_toLiteral⟩
  have hy : y.toRat = guarded scale (a.toRat / b.toRat) := by
    rw [toRat_ofDecimal, Decimal.toRat_ofUnits, guarded]
  have hconclude : conclude scale y.1.text = .ok (.ofRat scale y.toRat) :=
    conclude_text (by rw [hy]; exact isOverlong_guarded h)
  rw [outcome_evaluate_quotientText, hquotient, ← hy]
  exact hconclude

end Operand

/-! ## Calculating a quotient -/

/-- What stands behind an equals sign is an answer that is not marked as rounded. -/
theorem Answer.render_eq_exact_iff {answer : Answer} {t : Text} :
    answer.render = "= ".toList ++ t ↔ answer.rounded = false ∧ answer.value.plain = t := by
  rw [render]
  cases answer.rounded <;> simp

/-- What stands behind an approximation sign is one that is. -/
theorem Answer.render_eq_rounded_iff {answer : Answer} {t : Text} :
    answer.render = "≈ ".toList ++ t ↔ answer.rounded = true ∧ answer.value.plain = t := by
  rw [render]
  cases answer.rounded <;> simp

/-- What is shown of a decimal is read as the same number. -/
theorem Decimal.exists_ofText?_plain (d : Decimal) :
    ∃ x, ofText? d.plain = some x ∧ x.toRat = d.toRat :=
  ⟨_, ofText?_text d.isProper_toLiteral, toRat_value_toLiteral d⟩

/-- **An equals sign means almost exact.**  A quotient of two numbers, the second one not zero, is a
fault if rounding it takes too many digits.  Otherwise it is answered with an equals sign if it lies
within half a unit of the last guard place from a number with as many places as the answer, and with
an approximation sign if not.  Behind the equals sign stands the number that it lies close to, which
is the quotient itself just if that has no more places; behind the other there is never the
quotient. -/
theorem calculate_quotient_iff {a b : Operand} (hb : b.toRat ≠ 0) (store : Settings.Store)
    (scale : Int) :
    let q := a.toRat / b.toRat
    let result := (calculate store (.string (a.quotientText b)) (some scale)).result
    ((∃ report, result = .error report) ↔ Decimal.IsTooLong (scale + Operator.guardPlaces) q) ∧
      ((∃ t, result = .ok ("= ".toList ++ t)) ↔
        ¬ Decimal.IsTooLong (scale + Operator.guardPlaces) q ∧ IsAlmostExact scale q) ∧
      ((∃ t, result = .ok ("≈ ".toList ++ t)) ↔
        ¬ Decimal.IsTooLong (scale + Operator.guardPlaces) q ∧ ¬ IsAlmostExact scale q) ∧
      (∀ t, result = .ok ("= ".toList ++ t) → ∃ x, Decimal.ofText? t = some x ∧
        |x.toRat - q| ≤ (10 : Rat) ^ (-scale) / 20000 ∧ (x.toRat = q ↔ HasPlaces scale q)) ∧
      ∀ t, result = .ok ("≈ ".toList ++ t) → ∃ x, Decimal.ofText? t = some x ∧ x.toRat ≠ q := by
  intro q result
  by_cases hlong : Decimal.IsTooLong (scale + Operator.guardPlaces) q
  · have hresult : result = .error ((Report.ofFault .overlong).about (.string (a.quotientText b))) :=
      result_calculate_eq_error_iff.2 ⟨_, Operand.outcome_evaluate_of_isTooLong hb hlong, rfl⟩
    simp [hresult, hlong]
  · let answer := Answer.ofRat scale (guarded scale q)
    have hresult : result = .ok answer.render :=
      result_calculate_eq_ok_iff.2 ⟨_, Operand.outcome_evaluate_of_not_isTooLong hb hlong, rfl⟩
    have hrounded : answer.rounded = true ↔ ¬ IsAlmostExact scale q :=
      Answer.rounded_ofRat_iff.trans (not_congr hasPlaces_guarded_iff)
    have hexact : answer.rounded = false ↔ IsAlmostExact scale q := by
      rw [← Bool.not_eq_true, hrounded, not_not]
    simp only [hresult, Except.ok.injEq, Answer.render_eq_exact_iff, Answer.render_eq_rounded_iff,
      hrounded, hexact]
    refine ⟨by simp [hlong], by simp [hlong], by simp [hlong], ?_, ?_⟩
    · rintro t ⟨halmost, rfl⟩
      obtain ⟨x, hread, hx⟩ := Decimal.exists_ofText?_plain answer.value
      have hguarded : x.toRat = guarded scale q :=
        hx.trans (Answer.toRat_ofRat_eq_iff.2 (hasPlaces_guarded_iff.2 halmost))
      refine ⟨x, hread, ?_, ?_⟩
      · rw [hguarded]
        exact abs_guarded_sub_le scale q
      · rw [hguarded]
        exact guarded_eq_iff halmost
    · rintro t ⟨hnot, rfl⟩
      obtain ⟨x, hread, hx⟩ := Decimal.exists_ofText?_plain answer.value
      refine ⟨x, hread, fun heq ↦ hnot ?_⟩
      have hplaces := Answer.hasPlaces_ofRat scale (guarded scale q)
      rw [← hx, heq] at hplaces
      exact hplaces.isAlmostExact

/-- The literal of an integer. -/
def Operand.ofInt (n : Int) : Operand :=
  ⟨(Decimal.ofUnits n 0).toLiteral, Decimal.isProper_toLiteral _⟩

theorem Operand.toRat_ofInt (n : Int) : (ofInt n).toRat = n := by
  rw [ofInt, toRat_ofDecimal, Decimal.toRat_ofUnits, zpow_zero, mul_one]

/-- `1 / 4` is exactly what stands behind the equals sign. -/
theorem calculate_quotient_iff_quarter :
    (Operand.ofInt 4).toRat ≠ 0 ∧
      ∃ t x, (calculate .fresh (.string ((Operand.ofInt 1).quotientText (.ofInt 4)))
          (some 2)).result = .ok ("= ".toList ++ t) ∧
        Decimal.ofText? t = some x ∧ x.toRat = 1 / 4 := by
  have hne : (Operand.ofInt 4).toRat ≠ 0 := by
    rw [Operand.toRat_ofInt]
    norm_num
  have hquotient : (Operand.ofInt 1).toRat / (Operand.ofInt 4).toRat = 1 / 4 := by
    rw [Operand.toRat_ofInt, Operand.toRat_ofInt]
    norm_num
  have hplaces : HasPlaces 2 (1 / 4) := ⟨25, by norm_num⟩
  have hshort : ¬ Decimal.IsTooLong (2 + Operator.guardPlaces) (1 / 4) := by
    rw [Decimal.isTooLong_iff]
    decide +kernel
  obtain ⟨-, hsign, -, hvalue, -⟩ :=
    @calculate_quotient_iff (.ofInt 1) (.ofInt 4) hne .fresh 2
  rw [hquotient] at hsign hvalue
  obtain ⟨t, ht⟩ := hsign.2 ⟨hshort, hplaces.isAlmostExact⟩
  obtain ⟨x, hread, -, hx⟩ := hvalue t ht
  exact ⟨hne, t, x, ht, hread, hx.2 hplaces⟩

/-- `1 / 10000000` is answered with an equals sign, and zero behind it. -/
theorem calculate_tiny_quotient :
    ∃ a b : Operand, a.quotientText b = "1 / 10000000".toList ∧ b.toRat ≠ 0 ∧
      (calculate .fresh (.string "1 / 10000000".toList) (some 2)).result =
        .ok ("= ".toList ++ "0.00".toList) ∧
      ∃ x, Decimal.ofText? "0.00".toList = some x ∧ x.toRat ≠ a.toRat / b.toRat := by
  have houtcome : (evaluate 2 "1 / 10000000".toList).outcome = .ok ⟨⟨false, 0, -2⟩, false⟩ := by
    refine outcome_evaluate_of_within 9 ?_
    decide +kernel
  have hresult : (calculate .fresh (.string "1 / 10000000".toList) (some 2)).result =
      .ok ("= ".toList ++ "0.00".toList) :=
    result_calculate_eq_ok_iff.2 ⟨_, houtcome, by decide⟩
  have hzero : Decimal.toRat ⟨false, 0, -2⟩ = 0 := (Decimal.isZero_iff _).1 rfl
  refine ⟨.ofInt 1, .ofInt 10000000, by decide, ?_, hresult, ⟨false, 0, -2⟩, by decide, ?_⟩
  · rw [Operand.toRat_ofInt]
    norm_num
  · rw [Operand.toRat_ofInt, Operand.toRat_ofInt, hzero]
    norm_num

end Reckon
