import Reckon.Proofs.Parentheses.Outer
import Reckon.Proofs.Quotient

/-!
# Answers as expressions

The number of an answer can be taken for an expression again, and it then is its own answer: it is
one literal, so nothing in it is reduced, and it has the places of the scale already, so rounding
changes nothing (`Answer.ofRat_toRat_ofRat`).  This takes no more digits than the first rounding
did, although the number that is shown may have more of them: at negative scales the zeros before
the point are written out, but they are not counted.

The sign in front may change.  An answer that was rounded is the exact answer to itself.
-/

set_option autoImplicit false

namespace Reckon

variable {scale : Int}

namespace Answer

/-- What is rounded counts the same number of units as before. -/
theorem nearestEven_toRat_ofRat (scale : Int) (x : Rat) :
    nearestEven ((ofRat scale x).value.toRat * (10 : Rat) ^ scale) =
      nearestEven (x * (10 : Rat) ^ scale) := by
  rw [ofRat, Decimal.toRat_ofUnits, Decimal.mul_zpow_neg_mul_zpow, nearestEven_intCast]

/-- What is rounded is not changed by being rounded again. -/
theorem ofRat_toRat_ofRat (scale : Int) (x : Rat) :
    ofRat scale (ofRat scale x).value.toRat = ⟨(ofRat scale x).value, false⟩ := by
  have hvalue : (ofRat scale (ofRat scale x).value.toRat).value = (ofRat scale x).value :=
    congrArg (Decimal.ofUnits · (-scale)) (nearestEven_toRat_ofRat scale x)
  have hexact : (ofRat scale (ofRat scale x).value.toRat).rounded = false := by
    rw [← Bool.not_eq_true, rounded_ofRat_iff, not_not]
    exact hasPlaces_ofRat scale x
  exact congrArg₂ Answer.mk hvalue hexact

/-- An answer that is concluded from some text is concluded from its own number, without being
rounded. -/
theorem conclude_plain {s : Text} {answer : Answer} (h : conclude scale s = .ok answer) :
    conclude scale answer.value.plain = .ok ⟨answer.value, false⟩ := by
  obtain ⟨l, -, hshort, rfl⟩ := conclude_eq_ok_iff.1 h
  let value := (ofRat scale l.value.toRat).value
  have hread : value.toLiteral.value.toRat = value.toRat := Decimal.toRat_value_toLiteral value
  refine conclude_eq_ok_iff.2
    ⟨value.toLiteral, Literal.ofText?_text value.isProper_toLiteral, ?_, ?_⟩
  · rw [hread, nearestEven_toRat_ofRat]
    exact hshort
  · rw [hread, ofRat_toRat_ofRat]

end Answer

/-- The number of an answer is an expression with that number as its exact value. -/
theorem outcome_evaluate_plain {s : Text} {answer : Answer}
    (h : (evaluate scale s).outcome = .ok answer) :
    (evaluate scale answer.value.plain).outcome = .ok ⟨answer.value, false⟩ := by
  rw [outcome_evaluate] at h
  obtain ⟨t, -, hconclude⟩ := Outcome.bind_eq_ok_iff.1 h
  exact (outcome_evaluate_literal scale ⟨_, answer.value.isProper_toLiteral⟩).trans
    (Answer.conclude_plain hconclude)

/-- **The number of an answer is its own answer.**  What stands behind the sign of an answer, taken
for an expression at the same scale, is answered with an equals sign and the same text behind it. -/
theorem calculate_shown_number {store : Settings.Store} {s answer : Text}
    (h : (calculate store (.string s) (some scale)).result = .ok answer) :
    ∃ t : Text, (answer = "= ".toList ++ t ∨ answer = "≈ ".toList ++ t) ∧
      ∀ other : Settings.Store,
        (calculate other (.string t) (some scale)).result = .ok ("= ".toList ++ t) := by
  obtain ⟨a, ha, rfl⟩ := result_calculate_eq_ok_iff.1 h
  refine ⟨a.value.plain, ?_, fun other ↦ ?_⟩
  · cases hrounded : a.rounded with
    | false => exact .inl (Answer.render_eq_exact_iff.2 ⟨hrounded, rfl⟩)
    | true => exact .inr (Answer.render_eq_rounded_iff.2 ⟨hrounded, rfl⟩)
  · have hrender : (⟨a.value, false⟩ : Answer).render = "= ".toList ++ a.value.plain :=
      Answer.render_eq_exact_iff.2 ⟨rfl, rfl⟩
    exact result_calculate_eq_ok_iff.2 ⟨_, outcome_evaluate_plain ha, hrender.symm⟩

/-- `-1234 / 7` is about `-200` when it is rounded to hundreds, and `-200` is `-200`. -/
theorem calculate_shown_number_hundreds :
    (calculate .fresh (.string "-1234 / 7".toList) (some (-2))).result =
        .ok ("≈ ".toList ++ "-200".toList) ∧
      (calculate .fresh (.string "-200".toList) (some (-2))).result =
        .ok ("= ".toList ++ "-200".toList) := by
  have houtcome : (evaluate (-2) "-1234 / 7".toList).outcome = .ok ⟨⟨true, 2, 2⟩, true⟩ :=
    outcome_evaluate_of_within 9 (by decide +kernel)
  have hresult : (calculate .fresh (.string "-1234 / 7".toList) (some (-2))).result =
      .ok ("≈ ".toList ++ "-200".toList) :=
    result_calculate_eq_ok_iff.2 ⟨_, houtcome, by decide⟩
  obtain ⟨t, ht, hagain⟩ := calculate_shown_number hresult
  have hsign : "≈ ".toList ++ "-200".toList ≠ "= ".toList ++ t := by simp
  have htext : "-200".toList = t := List.append_cancel_left (ht.resolve_left hsign)
  exact ⟨hresult, htext ▸ hagain .fresh⟩

end Reckon
