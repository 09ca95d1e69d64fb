import Reckon.Proofs.Blanks
import Reckon.Proofs.Quotient

/-!
# Chains of differences without blanks

In a chain of literals with minus signs between them and no blanks, a sign may be that of an
operator or that of the literal behind it, and two of them stand side by side in front of a negative
literal.  Still there is only one way in which the chain is read.  A literal is taken together with
the sign in front of it where the reader begins, and the next sign is an operator.  So the leftmost
operation is the first difference, and no other operation is found anywhere in the chain
(`Row.reads_symbolText`).  What it comes to may have another sign than the literals it was made of,
but it is the first literal of a shorter chain again.

Each difference is exact, so that the chain is rounded only once, in the end
(`Operand.evaluate_differences`).
-/

set_option autoImplicit false

namespace Reckon

/-! ## Reducing a row of differences -/

namespace Row

variable {scale : Int} {r : Row Operand} (h : ∀ a ∈ operators r.rest, a = .minus)

include h

theorem check_differences : Flat.check r.compact = .ok () := by
  have hcheck : Flat.check ([] ++ (r.compact ++ [])) = .ok () :=
    check_edges isEdge_nil isEdge_nil fun sep hsep ↦
      reads_symbolText_bad hsep fun p hp ↦ h _ (List.mem_map_of_mem hp)
  rwa [List.nil_append, List.append_nil] at hcheck

theorem outcome_exhaustAll_differences (ops : List Operator) :
    (Flat.exhaustAll scale ops r.compact).outcome =
      (workOffAll (Operand.apply scale) ops r).map compact := by
  induction ops generalizing r with
  | nil => rfl
  | cons op ops ih =>
    refine outcome_exhaustAll_compact (outcome_exhaust_differences op h) fun r' hr' ↦ ih ?_
    rw [operators_of_workOff hr']
    exact fun a ha ↦ h a (List.mem_of_mem_filter ha)

/-- Differences without blanks are reduced to what they come to with blanks. -/
theorem outcome_reduce_differences :
    (Flat.reduce scale r.compact).outcome =
      (r.value (Operand.apply scale)).map fun x ↦ x.1.text :=
  outcome_reduce_of_exhaustAll (check_differences h)
    (outcome_exhaustAll_differences h Operator.all)

end Row

/-! ## What a chain comes to -/

namespace Operand

/-- The row of a literal and those that are taken away from it. -/
def differenceRow (x : Operand) (ys : List Operand) : Row Operand :=
  ⟨x, ys.map fun y ↦ (.spaced .minus (by decide), y)⟩

/-- A chain of differences as it is written without blanks. -/
def differenceText (x : Operand) (ys : List Operand) : Text :=
  ['-'].intercalate ((x :: ys).map fun y ↦ y.1.text)

/-- What a chain of differences comes to, from the left. -/
def difference (x : Operand) (ys : List Operand) : Rat := ys.foldl (fun d y ↦ d - y.toRat) x.toRat

theorem compact_differenceRow (x : Operand) (ys : List Operand) :
    (differenceRow x ys).compact = differenceText x ys := by
  induction ys generalizing x with
  | nil => simp [differenceRow, differenceText, Row.compact, Row.textBy, Row.tailBy]
  | cons y ys ih =>
    have hcompact : (differenceRow x (y :: ys)).compact =
        x.1.text ++ ('-' :: (differenceRow y ys).compact) := rfl
    rw [hcompact, ih, differenceText, differenceText]
    simp [List.intercalate_cons_cons]

theorem operators_differenceRow {x : Operand} {ys : List Operand} :
    ∀ a ∈ Row.operators (differenceRow x ys).rest, a = .minus := by
  intro a ha
  obtain ⟨p, hp, rfl⟩ := List.mem_map.1 ha
  obtain ⟨y, -, rfl⟩ := List.mem_map.1 hp
  rfl

/-- Working off the differences goes through the chain from the left and is exact. -/
theorem exists_workOff_differenceRow (scale : Int) (x : Operand) (ys : List Operand) :
    ∃ z : Operand, z.toRat = difference x ys ∧
      Row.workOff (apply scale .minus) .minus x (differenceRow x ys).rest = .ok ⟨z, []⟩ := by
  induction ys generalizing x with
  | nil => exact ⟨x, rfl, rfl⟩
  | cons y ys ih =>
    let d := x.1.value.sub y.1.value
    let first : Operand := ⟨d.toLiteral, d.isProper_toLiteral⟩
    have hfirst : first.toRat = x.toRat - y.toRat :=
      (toRat_ofDecimal d).trans (Decimal.toRat_sub _ _)
    obtain ⟨z, hz, hrow⟩ := ih first
    refine ⟨z, ?_, hrow⟩
    rw [hz, difference, hfirst]
    rfl

/-- A chain has no other operators, so that nothing else is worked off. -/
theorem exists_value_differenceRow (scale : Int) (x : Operand) (ys : List Operand) :
    ∃ z : Operand, z.toRat = difference x ys ∧
      (differenceRow x ys).value (apply scale) = .ok z := by
  obtain ⟨z, hz, hminus⟩ := exists_workOff_differenceRow scale x ys
  have hnone : ∀ op, op ≠ .minus → op ∉ Row.operators (differenceRow x ys).rest := fun op hop hmem ↦
    hop (operators_differenceRow op hmem)
  refine ⟨z, hz, ?_⟩
  rw [Row.value, Operator.all, Row.workOffAll_of_not_mem (hnone _ (by decide)),
    Row.workOffAll_of_not_mem (hnone _ (by decide)),
    Row.workOffAll_of_not_mem (hnone _ (by decide)), Row.workOffAll]
  dsimp only [differenceRow] at hminus ⊢
  rw [hminus]
  rfl

/-! ## Evaluating a chain -/

/-- **A chain of differences is worked off from the left.**  For any literals, negative ones among
them, with minus signs between them and no blanks, the value is that of the first one less all the
others, rounded once and half to even; only if it then takes too many digits, there is none. -/
theorem evaluate_differences (scale : Int) (x : Operand) (ys : List Operand) :
    let outcome := (evaluate scale (differenceText x ys)).outcome
    (Decimal.IsTooLong scale (difference x ys) → outcome = .error .overlong) ∧
      (¬ Decimal.IsTooLong scale (difference x ys) →
        outcome = .ok (.ofRat scale (difference x ys))) := by
  intro outcome
  obtain ⟨z, hz, hvalue⟩ := exists_value_differenceRow scale x ys
  have houtcome : outcome = conclude scale z.1.text := by
    show (evaluate scale (differenceText x ys)).outcome = _
    rw [← compact_differenceRow, Row.outcome_evaluate_of_isBare (Row.isBare_compact _),
      Row.outcome_reduce_differences operators_differenceRow, hvalue]
    rfl
  rw [houtcome, ← hz]
  constructor
  · exact fun hlong ↦ conclude_eq_error_iff.2 (.inr ⟨z.1, Literal.ofText?_text z.2, hlong, rfl⟩)
  · intro hshort
    rw [Decimal.isTooLong_iff, Bool.not_eq_true] at hshort
    exact conclude_text hshort

/-- `5--3-10` comes to `-2`, by way of `8-10`. -/
theorem evaluate_differences_negative :
    differenceText (ofInt 5) [ofInt (-3), ofInt 10] = "5--3-10".toList ∧
      (evaluate 2 "5--3-10".toList).outcome = .ok ⟨⟨true, 200, -2⟩, false⟩ := by
  have htext : differenceText (ofInt 5) [ofInt (-3), ofInt 10] = "5--3-10".toList := by
    decide
  have hdifference : difference (ofInt 5) [ofInt (-3), ofInt 10] = -2 := by
    simp only [difference, List.foldl_cons, List.foldl_nil, toRat_ofInt]
    norm_num
  have hshort : ¬ Decimal.IsTooLong 2 (-2) := by
    rw [Decimal.isTooLong_iff]
    decide +kernel
  obtain ⟨-, hvalue⟩ := evaluate_differences 2 (ofInt 5) [ofInt (-3), ofInt 10]
  rw [hdifference, htext] at hvalue
  refine ⟨htext, (hvalue hshort).trans ?_⟩
  decide +kernel

end Operand
end Reckon
