import Reckon.Proofs.Quotient

/-!
# How the number of an answer is written

An answer has the places that it was asked for, and none if it was asked for no places or for zeros
before the point.  Apart from them it is written as a number usually is: without zeros in front of
the digits before the point, except for the one that stands there alone, and without a minus sign if
it is zero.  A literal of this kind is tidy (`Literal.IsTidy`).

Digits are tidy when they come from a number (`Numeral.isTidy_digits`).  They stay so whether a
point is set among them, which may take zeros in front (`Decimal.isTidy_whole_pointed`), or zeros
are put behind them (`Decimal.isTidy_whole_toLiteral`).  The sign is no matter of writing: what is
rounded has none where nothing is left, and a decimal that comes about in another way may be a
negative zero.

So the number that is shown is tidy, and it is the one nearest to the literal that the expression
has been reduced to (`answer_of_calculation`).
-/

set_option autoImplicit false

namespace Reckon

/-! ## Digits before the point -/

namespace Numeral

/-- Digits that do not begin with a zero, if that is not all of them. -/
def IsTidy (s : Text) : Prop := s = ['0'] ∨ s.head? ≠ some '0'

theorem head?_digits_ne_zero {n : Nat} (hn : n ≠ 0) : (digits n).head? ≠ some '0' := by
  induction n using Nat.strongRecOn with
  | ind n ih =>
    by_cases hlt : n < 10
    · rw [digits, Nat.toDigits_of_lt_base hlt]
      simpa using hn
    · have hsmaller : n / 10 < n := by omega
      have hnonzero : n / 10 ≠ 0 := by omega
      rw [digits, Nat.toDigits_of_base_le (by decide) (by omega), ← digits,
        List.head?_append_of_ne_nil _ (digits_ne_nil _)]
      exact ih (n / 10) hsmaller hnonzero

/-- The digits of a number are tidy. -/
theorem isTidy_digits (n : Nat) : IsTidy (digits n) := by
  by_cases hn : n = 0
  · exact .inl (by rw [hn]; rfl)
  · exact .inr (head?_digits_ne_zero hn)

theorem IsTidy.take {s : Text} (h : IsTidy s) {n : Nat} (hn : 0 < n) : IsTidy (s.take n) := by
  rcases h with rfl | h
  · exact .inl (List.take_of_length_le hn)
  · exact .inr (by rwa [List.head?_take, if_neg hn.ne'])

end Numeral

namespace Decimal

/-- Zeros are only put in front of the digits so that one of them stands before the point. -/
theorem isTidy_whole_pointed (negative : Bool) (places : Nat) {s : Text}
    (hs : Numeral.IsTidy s) : Numeral.IsTidy (pointed negative places s).whole := by
  have hlength := length_padded (places + 1) s
  dsimp only [pointed]
  by_cases hshort : s.length ≤ places
  · have hwhole : (padded (places + 1) s).length - places = 1 := by omega
    have hzeros : places + 1 - s.length = (places - s.length) + 1 := by omega
    rw [hwhole, padded, hzeros, List.replicate_succ]
    exact .inl rfl
  · have hpadded : padded (places + 1) s = s := by
      rw [padded, show places + 1 - s.length = 0 by omega]
      rfl
    rw [hpadded]
    exact hs.take (by omega)

theorem isTidy_whole_toLiteral (d : Decimal) : Numeral.IsTidy d.toLiteral.whole := by
  have hdigits := Numeral.isTidy_digits d.coefficient
  rw [toLiteral]
  split
  · exact isTidy_whole_pointed _ _ hdigits
  · split
    · exact hdigits
    · next hzero =>
      have hcoefficient : d.coefficient ≠ 0 := by simpa [isZero] using hzero
      refine .inr ?_
      rw [List.head?_append_of_ne_nil _ (Numeral.digits_ne_nil _)]
      exact Numeral.head?_digits_ne_zero hcoefficient

end Decimal

/-! ## Tidy literals -/

/-- A literal that is written as an answer at a scale is. -/
structure Literal.IsTidy (scale : Int) (l : Literal) : Prop where
  isProper : l.IsProper
  whole : Numeral.IsTidy l.whole
  length_places : l.places.length = scale.toNat
  ne_zero_of_negative : l.negative = true → l.value.toRat ≠ 0

/-- What is rounded is written as a tidy literal. -/
theorem Decimal.isTidy_toLiteral_ofUnits (n scale : Int) :
    (ofUnits n (-scale)).toLiteral.IsTidy scale where
  isProper := isProper_toLiteral _
  whole := isTidy_whole_toLiteral _
  length_places := by
    rw [length_places_toLiteral, ofUnits, neg_neg]
  ne_zero_of_negative := by
    intro hnegative
    rw [negative_toLiteral, ofUnits] at hnegative
    have hn : n < 0 := of_decide_eq_true hnegative
    rw [toRat_value_toLiteral, toRat_ofUnits]
    exact mul_ne_zero (by exact_mod_cast hn.ne) (ten_zpow_ne_zero _)

/-! ## Answers -/

/-- **How an answer is written, and what it means.**  If a calculation has an answer, the expression
has been reduced to a literal, and the answer is an equals sign or an approximation sign with a tidy
literal behind it.  That literal writes the multiple of `10 ^ (-scale)` nearest to the reduced one,
ties to the even multiple, and the sign in front is an equals sign just if the two are the same
number. -/
theorem answer_of_calculation {store : Settings.Store} {scale : Int} {s answer : Text}
    (h : (calculate store (.string s) (some scale)).result = .ok answer) :
    ∃ (t : Text) (reduced l : Literal),
      (Nested.reduce scale s).outcome = .ok t ∧ Literal.ofText? t = some reduced ∧
      l.IsTidy scale ∧ Decimal.ofText? l.text = some l.value ∧
      (∃ k : Int, IsNearest (reduced.value.toRat * (10 : Rat) ^ scale) k ∧
        l.value.toRat = k * (10 : Rat) ^ (-scale)) ∧
      (answer = "= ".toList ++ l.text ∨ answer = "≈ ".toList ++ l.text) ∧
      (answer = "= ".toList ++ l.text ↔ l.value.toRat = reduced.value.toRat) := by
  obtain ⟨a, ha, rfl⟩ := result_calculate_eq_ok_iff.1 h
  rw [outcome_evaluate] at ha
  obtain ⟨t, ht, ha⟩ := Outcome.bind_eq_ok_iff.1 ha
  obtain ⟨reduced, hreduced, -, rfl⟩ := conclude_eq_ok_iff.1 ha
  let x := reduced.value.toRat
  let units := nearestEven (x * (10 : Rat) ^ scale)
  let value := Decimal.ofUnits units (-scale)
  have hvalue : value.toLiteral.value.toRat = value.toRat := Decimal.toRat_value_toLiteral value
  have hexact : (Answer.ofRat scale x).render = "= ".toList ++ value.plain ↔ value.toRat = x := by
    rw [Answer.render_eq_exact_iff]
    simp [Answer.ofRat, value, units]
  have hrounded :
      (Answer.ofRat scale x).render = "≈ ".toList ++ value.plain ↔ value.toRat ≠ x := by
    rw [Answer.render_eq_rounded_iff]
    simp [Answer.ofRat, value, units]
  refine ⟨t, reduced, value.toLiteral, ht, hreduced, Decimal.isTidy_toLiteral_ofUnits _ _,
    Decimal.ofText?_text value.isProper_toLiteral, ⟨units, isNearest_nearestEven _, ?_⟩, ?_, ?_⟩
  · rw [hvalue, Decimal.toRat_ofUnits]
  · by_cases heq : value.toRat = x
    · exact .inl (hexact.2 heq)
    · exact .inr (hrounded.2 heq)
  · rw [hvalue]
    exact hexact

/-- `-1 / 300` is rounded to zero, and shown without a minus sign. -/
theorem answer_of_calculation_zero :
    (calculate .fresh (.string "-1 / 300".toList) (some 2)).result =
        .ok "≈ 0.00".toList ∧
      ∃ (t : Text) (reduced l : Literal), (Nested.reduce 2 "-1 / 300".toList).outcome = .ok t ∧
        Literal.ofText? t = some reduced ∧ l.IsTidy 2 ∧ l.text = "0.00".toList ∧
        l.value.toRat ≠ reduced.value.toRat := by
  have houtcome : (evaluate 2 "-1 / 300".toList).outcome = .ok ⟨⟨false, 0, -2⟩, true⟩ :=
    outcome_evaluate_of_within 9 (by decide +kernel)
  have hresult : (calculate .fresh (.string "-1 / 300".toList) (some 2)).result =
      .ok "≈ 0.00".toList :=
    result_calculate_eq_ok_iff.2 ⟨_, houtcome, by decide⟩
  obtain ⟨t, reduced, l, ht, hreduced, htidy, -, -, htext, hexact⟩ := answer_of_calculation hresult
  have hsign : "≈ 0.00".toList ≠ "= ".toList ++ l.text := by simp
  have htext : "≈ ".toList ++ "0.00".toList = "≈ ".toList ++ l.text := htext.resolve_left hsign
  exact ⟨hresult, t, reduced, l, ht, hreduced, htidy, (List.append_cancel_left htext).symm,
    fun heq ↦ hsign (hexact.2 heq)⟩

end Reckon
