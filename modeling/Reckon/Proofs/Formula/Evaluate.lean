import Reckon.Proofs.Formula.Syntax
import Reckon.Proofs.Fuel

/-!
# The text of a formula has the value of the formula

The evaluation of a text knows nothing of terms.  It replaces innermost groups by texts, and
literals and operators by other literals, wherever its patterns find them.  On the text of a formula
that comes to the same as evaluating the formula term by term: what the groups are replaced by is
what the operands come to (`Formula.flatten_forest`), which agrees with the numbers that the terms
stand for (`Formula.agrees_operands`).

So an evaluation has the value of the formula for its answer, rounded, and a division by zero for
its fault where the formula has none (`evaluate_formula`).  It is only asked that no integer is too
long of those that have to be written out to round quotients and the answer.
-/

set_option autoImplicit false

namespace Reckon

open Nested

variable {scale : Int}

/-! ## Operands -/

mutual

/-- The literal that a term is replaced by. -/
def Term.operand (scale : Int) : Term → Except Fault Operand
  | .literal x => .ok x
  | .group _ inner _ => (inner.operands scale).bind (Row.value (Operand.apply scale))

/-- The literals that the terms of a formula are replaced by. -/
def Formula.operands (scale : Int) : Formula → Except Fault (Row Operand)
  | .one t => (t.operand scale).map fun x ↦ ⟨x, []⟩
  | .cons t j rest => (t.operand scale).bind fun x ↦ (rest.operands scale).map (Row.cons x j)

end

mutual

/-- The literal of a term agrees with its number. -/
theorem Term.agrees_operand : ∀ t : Term,
    Agrees Operand.toRat (t.operand scale) (t.value scale)
  | .literal x => by
    rw [Term.operand, Term.value]
    exact .pure _ x
  | .group _ inner _ => by
    rw [Term.operand, Term.value]
    exact (Formula.agrees_operands inner).bind Row.agrees_value

/-- The literals of a formula agree with its numbers. -/
theorem Formula.agrees_operands : ∀ f : Formula,
    Agrees (Row.map Operand.toRat) (f.operands scale) (f.row scale)
  | .one t => by
    rw [Formula.operands, Formula.row]
    exact (Term.agrees_operand t).map fun _ ↦ rfl
  | .cons t j rest => by
    rw [Formula.operands, Formula.row]
    exact (Term.agrees_operand t).both (Formula.agrees_operands rest) fun _ _ ↦ rfl

end

/-! ## Groups -/

theorem flatten_surround (g : Forest) (lead trail : Spaces) :
    (.ofChars lead.1 ++ (g ++ .ofChars trail.1) : Forest).flatten scale =
      (g.flatten scale).map fun s ↦ lead.1 ++ (s ++ trail.1) := by
  rw [Forest.flatten_append, Forest.flatten_append, Forest.flatten_ofChars, Forest.flatten_ofChars]
  cases g.flatten scale <;> rfl

/-- A row in parentheses is replaced by what it comes to. -/
theorem enclosed_text (r : Row Operand) (lead trail : Spaces) :
    Forest.enclosed scale (lead.1 ++ (r.text ++ trail.1)) =
      (r.value (Operand.apply scale)).map fun x ↦ x.1.text :=
  Row.outcome_reduce_enclosed scale lead.2 trail.2 r

mutual

/-- The groups of a term are replaced as its terms are. -/
theorem Term.flatten_forest : ∀ t : Term,
    t.forest.flatten scale = (t.operand scale).map fun x ↦ x.1.text
  | .literal x => by
    rw [Term.forest, Term.operand, Forest.flatten_ofChars]
    rfl
  | .group lead inner trail => by
    rw [Term.forest, Term.operand, Forest.flatten, flatten_surround, Formula.flatten_forest inner]
    cases inner.operands scale with
    | error e => rfl
    | ok r =>
      show ((Forest.enclosed scale (lead.1 ++ (r.text ++ trail.1))).bind fun t ↦ .ok (t ++ [])) =
        (r.value (Operand.apply scale)).map _
      rw [enclosed_text]
      cases r.value (Operand.apply scale) with
      | error e => rfl
      | ok x => exact congrArg Except.ok (List.append_nil _)

/-- The groups of a formula are replaced as its terms are. -/
theorem Formula.flatten_forest : ∀ f : Formula,
    f.forest.flatten scale = (f.operands scale).map Row.text
  | .one t => by
    rw [Formula.forest, Formula.operands, Term.flatten_forest t]
    cases t.operand scale with
    | error e => rfl
    | ok x => simp [Except.map, Row.text, Row.textBy, Row.tailBy]
  | .cons t j rest => by
    rw [Formula.forest, Formula.operands, Forest.flatten_append, Forest.flatten_append,
      Forest.flatten_ofChars, Term.flatten_forest t, Formula.flatten_forest rest]
    cases t.operand scale with
    | error e => rfl
    | ok x =>
      cases rest.operands scale with
      | error e => rfl
      | ok r => rfl

end

/-! ## Faults -/

theorem not_fails_ofChars (s : Text) (e : Fault) : ¬ (Forest.ofChars s).Fails scale e := by
  intro h
  exact h.flatten_ne_ok s (Forest.flatten_ofChars s)

theorem fails_of_surround {g : Forest} {lead trail : Spaces} {e : Fault}
    (h : (.ofChars lead.1 ++ (g ++ .ofChars trail.1) : Forest).Fails scale e) :
    g.Fails scale e := by
  rcases Forest.fails_append h with h | h
  · exact absurd h (not_fails_ofChars _ e)
  · exact (Forest.fails_append h).resolve_right (not_fails_ofChars _ e)

mutual

/-- The fault of a group in a term is a division by zero. -/
theorem Term.isByZero_of_fails {e : Fault} : ∀ t : Term, (t.value scale).Fits →
    t.forest.Fails scale e → e.IsByZero
  | .literal x, _, h => by
    rw [Term.forest] at h
    exact absurd h (not_fails_ofChars _ e)
  | .group lead inner trail, hfits, h => by
    have hagrees : Agrees Operand.toRat ((Term.group lead inner trail).operand scale) _ :=
      Term.agrees_operand _
    rw [Term.forest] at h
    cases h with
    | here hs he =>
      refine hagrees.isByZero hfits ?_
      rw [flatten_surround, Formula.flatten_forest inner] at hs
      obtain ⟨u, hu, rfl⟩ := Outcome.map_eq_ok_iff.1 hs
      obtain ⟨r, hr, rfl⟩ := Outcome.map_eq_ok_iff.1 hu
      rw [enclosed_text] at he
      rw [Term.operand, hr, Except.bind]
      exact Outcome.map_eq_error_iff.1 he
    | inside h =>
      rw [Term.value] at hfits
      exact Formula.isByZero_of_fails inner hfits.of_bind (fails_of_surround h)
    | behind h => cases h

/-- The fault of a group in a formula is a division by zero. -/
theorem Formula.isByZero_of_fails {e : Fault} : ∀ f : Formula, (f.row scale).Fits →
    f.forest.Fails scale e → e.IsByZero
  | .one t, hfits, h => by
    rw [Formula.forest] at h
    rw [Formula.row] at hfits
    have hterm : (t.value scale).Fits := Reckoning.Fits.of_bind hfits
    exact Term.isByZero_of_fails t hterm h
  | .cons t j rest, hfits, h => by
    rw [Formula.forest] at h
    rw [Formula.row] at hfits
    rcases Forest.fails_append h with h | h
    · exact Term.isByZero_of_fails t (fun n hn ↦ hfits n (List.mem_append_left _ hn)) h
    · rcases Forest.fails_append h with h | h
      · exact absurd h (not_fails_ofChars _ e)
      · exact Formula.isByZero_of_fails rest (fun n hn ↦ hfits n (List.mem_append_right _ hn)) h

end

/-! ## Evaluation -/

/-- Where the terms of a formula have literals, it is evaluated as the row of them. -/
theorem Formula.outcome_evaluate_of_operands {f : Formula} {r : Row Operand}
    (h : f.operands scale = .ok r) (lead trail : Spaces) :
    (evaluate scale (lead.1 ++ (f.text ++ trail.1))).outcome =
      (r.value (Operand.apply scale)).bind fun x ↦ conclude scale x.1.text := by
  have hresolve : (resolve scale (lead.1 ++ (f.text ++ trail.1))).outcome =
      .ok (lead.1 ++ (r.text ++ trail.1)) := by
    rw [outcome_resolve_eq_ok_iff, Formula.ofText_text, flatten_surround, Formula.flatten_forest, h]
    rfl
  rw [outcome_evaluate, Nested.outcome_reduce, hresolve, Except.bind,
    Row.outcome_reduce_spaces scale lead.2 trail.2]
  cases r.value (Operand.apply scale) <;> rfl

/-- Where some term has none, the evaluation ends with the fault of a group. -/
theorem Formula.outcome_evaluate_of_error {f : Formula} {e : Fault}
    (h : f.operands scale = .error e) (lead trail : Spaces) :
    ∃ e', (evaluate scale (lead.1 ++ (f.text ++ trail.1))).outcome = .error e' ∧
      f.forest.Fails scale e' := by
  have hresolve : ∃ e', (resolve scale (lead.1 ++ (f.text ++ trail.1))).outcome = .error e' := by
    rw [Outcome.exists_error_iff]
    rintro ⟨t, ht⟩
    rw [outcome_resolve_eq_ok_iff, Formula.ofText_text, flatten_surround,
      Formula.flatten_forest, h] at ht
    cases ht
  obtain ⟨e', he'⟩ := hresolve
  have hfails := fails_of_outcome_resolve he'
  rw [Formula.ofText_text] at hfails
  refine ⟨e', ?_, fails_of_surround hfails⟩
  rw [outcome_evaluate, Nested.outcome_reduce, he']
  rfl

/-- The evaluation of the text of a formula agrees with the answer of the formula. -/
theorem Formula.agrees_evaluate (scale : Int) (lead trail : Spaces) (f : Formula) :
    Agrees id (evaluate scale (lead.1 ++ (f.text ++ trail.1))).outcome (f.answer scale) := by
  have hvalue : Agrees Operand.toRat ((f.operands scale).bind (Row.value (Operand.apply scale)))
      (f.value scale) := f.agrees_operands.bind Row.agrees_value
  cases hoperands : f.operands scale with
  | ok r =>
    rw [hoperands] at hvalue
    rw [outcome_evaluate_of_operands hoperands]
    refine hvalue.bind fun x hfits ↦ ?_
    have hlong := hfits _ (List.mem_singleton.2 rfl)
    rw [conclude_text hlong]
    rfl
  | error e =>
    intro hfits
    have hvaluefits : (f.value scale).Fits := hfits.of_bind
    obtain ⟨e', he', hfails⟩ := outcome_evaluate_of_error hoperands lead trail
    have hnone : (f.value scale).value = none := by
      cases hsome : (f.value scale).value with
      | none => rfl
      | some x =>
        obtain ⟨a, ha, -⟩ := hvalue.of_yields ⟨hvaluefits, hsome⟩
        rw [hoperands] at ha
        cases ha
    rw [Formula.answer, Reckoning.bind_of_value_eq_none hnone]
    exact ⟨e', he', f.isByZero_of_fails hvaluefits.of_bind hfails⟩

/-- **The text of a formula has the value of the formula.**  Unless an integer that is rounded to on
the way is too long, an evaluation gives the number that the formula stands for, rounded to the
scale, and says whether that was exact; and it is rejected, for a division by zero, exactly when the
formula stands for no number. -/
theorem evaluate_formula (scale : Int) (lead trail : Spaces) (f : Formula)
    (h : (f.answer scale).Fits) :
    (∀ x, (f.value scale).value = some x →
      (evaluate scale (lead.1 ++ (f.text ++ trail.1))).outcome = .ok (.ofRat scale x)) ∧
    ((f.value scale).value = none ↔
      ∃ e, (evaluate scale (lead.1 ++ (f.text ++ trail.1))).outcome = .error e ∧ e.IsByZero) := by
  have hsettles := f.agrees_evaluate scale lead trail h
  rw [Formula.answer] at hsettles
  cases hvalue : (f.value scale).value with
  | none =>
    rw [Reckoning.bind_of_value_eq_none hvalue] at hsettles
    exact ⟨fun x hx ↦ (nomatch hx), iff_of_true rfl hsettles⟩
  | some x =>
    rw [Reckoning.bind_of_value_eq_some hvalue] at hsettles
    obtain ⟨a, ha, rfl⟩ := Outcome.map_eq_ok_iff.1 hsettles
    refine ⟨fun y hy ↦ ?_, iff_of_false (fun h ↦ nomatch h) ?_⟩
    · cases hy
      exact ha
    · rintro ⟨e, he, -⟩
      rw [ha] at he
      cases he

/-- The formula `1.0 / (1.0 + 1.0)`. -/
def Formula.half : Formula :=
  .cons (.literal .one) (.spaced .divide (by decide))
    (.one (.group ⟨[], by simp⟩
      (.cons (.literal .one) (.spaced .plus (by decide)) (.one (.literal .one))) ⟨[], by simp⟩))

/-- One half has the value 0.50, which is exact. -/
theorem evaluate_formula_half :
    (Formula.half.answer 2).Fits ∧
      (evaluate 2 "1.0 / (1.0 + 1.0)".toList).outcome = .ok ⟨⟨false, 50, -2⟩, false⟩ := by
  have hfits : (Formula.half.answer 2).Fits := by
    have hunits : (Formula.half.answer 2).units = [500000, 50] := by decide +kernel
    rw [Reckoning.Fits, hunits]
    decide +kernel
  have hvalue : (Formula.half.value 2).value = some (1 / 2) := by decide +kernel
  have hanswer : Answer.ofRat 2 (1 / 2) = ⟨⟨false, 50, -2⟩, false⟩ := by decide +kernel
  have heval := (evaluate_formula 2 ⟨[], by simp⟩ ⟨[], by simp⟩ Formula.half hfits).1 _ hvalue
  rw [hanswer] at heval
  exact ⟨hfits, heval⟩

end Reckon
