import Reckon.Proofs.Blanks
import Reckon.Proofs.Margin
import Reckon.Proofs.Parentheses.Balance

/-!
# Parentheses around an expression

An expression in parentheses is evaluated in one pass more than without them: that pass reduces what
those before it have left (`outcome_resolve_enclosed_eq_ok_iff`), and the result is then reduced
once again.  If the first of these reductions comes to a number, the second one has nothing to do,
and the parentheses make no difference (`evaluate_enclosed`).

If it does not, the second one may still come to a number.  In `6*--5+8` the product is out of reach
before `-5+8` has become `3`, and when it has, the products are over; but in parentheses what is
left, `6*-3`, is reduced again.  So parentheses can give a value to an expression that had none, but
they never take one away, nor change it.
-/

set_option autoImplicit false

namespace Reckon

open Nested

variable {scale : Int} {s : Text}

/-- What the passes leave of a text in parentheses is what the text inside is reduced to. -/
theorem outcome_resolve_enclosed_eq_ok_iff (hs : (Forest.ofText s).IsPaired) {t : Text} :
    (resolve scale ('(' :: (s ++ [')']))).outcome = .ok t ↔
      (Nested.reduce scale s).outcome = .ok t := by
  have htext : '(' :: (s ++ [')']) = (Forest.group (Forest.ofText s) .nil).text := by
    simp [Forest.text]
  have hflatten : (Forest.group (Forest.ofText s) .nil).flatten scale = .ok t ↔
      ∃ u, (Forest.ofText s).flatten scale = .ok u ∧ Forest.enclosed scale u = .ok t := by
    simp [Forest.flatten, Outcome.bind_eq_ok_iff, Outcome.map_eq_ok_iff]
  rw [outcome_resolve_eq_ok_iff, htext, Forest.ofText_text hs.group, hflatten,
    Nested.outcome_reduce, Outcome.bind_eq_ok_iff]
  refine exists_congr fun u ↦ ?_
  rw [outcome_resolve_eq_ok_iff]
  exact and_congr_right fun hu ↦
    Flat.outcome_reduce_enclosed_eq_ok_iff (hs.isBare_of_flatten hu)

/-- A text in parentheses has the value that what it is reduced to has. -/
theorem evaluate_enclosed_eq_ok_iff (hs : (Forest.ofText s).IsPaired) {a : Answer} :
    (evaluate scale ('(' :: (s ++ [')']))).outcome = .ok a ↔
      ∃ t, (Nested.reduce scale s).outcome = .ok t ∧ (evaluate scale t).outcome = .ok a := by
  have hgroup : (evaluate scale ([] ++ '(' :: (s ++ [')']) ++ [])).outcome = .ok a ↔ _ :=
    evaluate_group_eq_ok_iff hs [] [] a
  simp only [List.nil_append, List.append_nil, outcome_resolve_enclosed_eq_ok_iff hs] at hgroup
  exact hgroup

/-- A literal has the value that is concluded from it. -/
theorem outcome_evaluate_literal (scale : Int) (x : Operand) :
    (evaluate scale x.1.text).outcome = conclude scale x.1.text := by
  have htext : x.1.text = (⟨x, []⟩ : Row Operand).text := (List.append_nil _).symm
  rw [htext, Row.outcome_evaluate_text, ← htext]
  rfl

/-- **Parentheses around an expression never change its value.**  If an expression has a value, it
has the same one in parentheses, with the same digits, the same exponent and the same mark of
rounding. -/
theorem evaluate_enclosed {a : Answer} (h : (evaluate scale s).outcome = .ok a) :
    (evaluate scale ('(' :: (s ++ [')']))).outcome = .ok a := by
  refine (evaluate_enclosed_eq_ok_iff (isPaired_of_outcome_evaluate h)).2 ?_
  rw [outcome_evaluate] at h
  obtain ⟨t, ht, ha⟩ := Outcome.bind_eq_ok_iff.1 h
  obtain ⟨l, hl⟩ := exists_ofText?_of_conclude ha
  obtain ⟨hproper, rfl⟩ := Literal.ofText?_eq_some_iff.1 hl
  exact ⟨_, ht, (outcome_evaluate_literal scale ⟨l, hproper⟩).trans ha⟩

/-- Digits that stand directly at the parentheses of a group run together with its result, and still
do with another pair of parentheses around all of it. -/
theorem evaluate_enclosed_glued :
    (evaluate 2 "2(1 + 2) - 30".toList).outcome = .ok ⟨⟨true, 700, -2⟩, false⟩ ∧
      (evaluate 2 ('(' :: ("2(1 + 2) - 30".toList ++ [')']))).outcome =
        .ok ⟨⟨true, 700, -2⟩, false⟩ := by
  have h : (evaluate 2 "2(1 + 2) - 30".toList).outcome = .ok ⟨⟨true, 700, -2⟩, false⟩ :=
    outcome_evaluate_of_within 9 (by decide +kernel)
  exact ⟨h, evaluate_enclosed h⟩

/-- Parentheses can give a value to an expression that is not reduced to a number. -/
example : Flat.reduceWithin 9 2 "6*--5+8".toList = some "6*-3".toList ∧
    evaluateWithin 9 2 "(6*--5+8)".toList = some ⟨⟨true, 1800, -2⟩, false⟩ := by
  decide +kernel

end Reckon
