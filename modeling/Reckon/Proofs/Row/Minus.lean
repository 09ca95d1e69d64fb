import Mathlib.Data.List.Chain
import Reckon.Proofs.Decimal.Exact
import Reckon.Proofs.Row.Compact

/-!
# Operations behind minus signs

Without blanks a minus sign belongs to the literal behind it.  That is of no account to an operation
whose first literal stands behind another operator, and none to a product, since a sign can be taken
out of it (`Operand.apply_times_neg`).  An operator is clear in a list of operators (`IsClear`) if
the first place where it stands is not directly behind a minus sign.  Then an operation does the
same to a row without blanks as to the row with blanks (`outcome_step_compact`).

So quotients and sums are worked off as they are with blanks as long as none of them stands directly
behind a minus sign, products always are, and differences are when nothing else is left.
-/

set_option autoImplicit false

namespace Reckon

/-! ## Signs of results -/

namespace Decimal

theorem toLiteral_neg (d : Decimal) :
    d.neg.toLiteral = { d.toLiteral with negative := !d.negative } := by
  rw [toLiteral, toLiteral]
  by_cases hneg : d.exponent < 0
  · have hneg' : d.neg.exponent < 0 := hneg
    rw [if_pos hneg', if_pos hneg]
    rfl
  · have hneg' : ¬ d.neg.exponent < 0 := hneg
    rw [if_neg hneg', if_neg hneg]
    by_cases hzero : d.isZero = true
    · have hzero' : d.neg.isZero = true := hzero
      rw [if_pos hzero', if_pos hzero]
      rfl
    · have hzero' : ¬ d.neg.isZero = true := hzero
      rw [if_neg hzero', if_neg hzero]
      rfl

theorem mul_neg (a b : Decimal) : a.neg.mul b = (a.mul b).neg := by
  simp only [mul, neg, mk.injEq, and_self, and_true]
  cases a.negative <;> cases b.negative <;> rfl

end Decimal

/-- A sign can be taken out of a product. -/
theorem Operand.apply_times_neg (scale : Int) (x y : Operand) :
    apply scale .times x.neg y = (apply scale .times x y).map neg := by
  refine congrArg Except.ok (Subtype.ext ?_)
  show (x.1.value.neg.mul y.1.value).toLiteral = _
  rw [Decimal.mul_neg, Decimal.toLiteral_neg, ← Decimal.negative_toLiteral]
  rfl

/-- A sum that is not negative has no minus sign, unless both summands have one. -/
theorem Decimal.negative_add {a b : Decimal} (hsum : 0 ≤ a.toRat + b.toRat)
    (hsign : (a.negative && b.negative) = false) : (a.add b).negative = false := by
  have hunits : ¬ (a.add b).units < 0 := by
    intro hneg
    have hcast : ((a.add b).units : Rat) < 0 := by exact_mod_cast hneg
    rw [← toRat_add, toRat] at hsum
    exact absurd hsum (not_le.2 (mul_neg_of_neg_of_pos hcast (zpow_pos (by norm_num) _)))
  rw [units_add] at hunits
  rw [add, hsign]
  simp [hunits]

namespace Operator

/-- A quotient that is not negative has no minus sign. -/
theorem negative_quotient {scale : Int} {a b d : Decimal} (hquotient : 0 ≤ a.toRat / b.toRat)
    (h : quotient scale a b = .ok d) : d.negative = false := by
  have hnonneg : 0 ≤ a.toRat / b.toRat * (10 : Rat) ^ (scale + guardPlaces) :=
    mul_nonneg hquotient (zpow_nonneg (by norm_num) _)
  rw [eq_of_quotient h]
  exact decide_eq_false (not_lt.2 (nearestEven_nonneg hnonneg))

theorem negative_apply {op : Operator} (hop : op ≠ .minus) {scale : Int} {a b d : Decimal}
    (ha : a.negative = false) (hb : b.negative = false) (h : op.apply scale a b = .ok d) :
    d.negative = false := by
  have ha' := Decimal.toRat_nonneg ha
  have hb' := Decimal.toRat_nonneg hb
  cases op with
  | divide =>
    rw [apply] at h
    exact negative_quotient (div_nonneg ha' hb') h
  | times =>
    cases h
    rw [Decimal.mul, ha, hb]
    rfl
  | plus =>
    cases h
    exact Decimal.negative_add (add_nonneg ha' hb') (by rw [ha, hb]; rfl)
  | minus => exact absurd rfl hop
  | remainder =>
    rw [apply] at h
    split at h
    · cases h
    · cases h
      exact ha

end Operator

/-- Unsigned literals give an unsigned result, except in a difference. -/
theorem Operand.negative_apply {op : Operator} (hop : op ≠ .minus) {scale : Int} {x y z : Operand}
    (hx : x.1.negative = false) (hy : y.1.negative = false) (h : apply scale op x y = .ok z) :
    z.1.negative = false := by
  obtain ⟨d, hd, rfl⟩ := Outcome.map_eq_ok_iff.1 h
  exact (Decimal.negative_toLiteral d).trans (Operator.negative_apply hop hx hy hd)

/-! ## Operators directly behind minus signs -/

namespace Operator

/-- An operator does not stand directly behind a minus sign. -/
abbrev IsApart (op : Operator) (ops : List Operator) : Prop :=
  ops.IsChain fun a b ↦ a = .minus → b ≠ op

/-- An operator does not stand directly behind a minus sign where it stands first. -/
def IsClear (op : Operator) : List Operator → Prop
  | [] => True
  | a :: ops => a = op ∨ (a = .minus → ∀ b ∈ ops.head?, b ≠ op) ∧ IsClear op ops

variable {op : Operator} {ops : List Operator}

theorem IsApart.isClear (h : op.IsApart ops) : op.IsClear ops := by
  induction ops with
  | nil => trivial
  | cons a ops ih =>
    obtain ⟨hhead, htail⟩ := List.isChain_cons.1 h
    exact .inr ⟨fun ha b hb ↦ hhead b hb ha, ih htail⟩

theorem IsApart.erase (h : op.IsApart ops) : op.IsApart (ops.erase op) := by
  induction ops with
  | nil => exact h
  | cons a ops ih =>
    obtain ⟨hhead, htail⟩ := List.isChain_cons.1 h
    by_cases ha : a = op
    · rw [ha, List.erase_cons_head]
      exact htail
    · rw [List.erase_cons_tail (by simpa using ha)]
      refine List.isChain_cons.2 ⟨fun b hb ham ↦ ?_, ih htail⟩
      cases ops with
      | nil => cases hb
      | cons c ops =>
        have hc : c ≠ op := hhead c rfl ham
        rw [List.erase_cons_tail (by simpa using hc)] at hb
        cases hb
        exact hc

/-- What becomes apart by taking out an operator that is clear was apart. -/
theorem IsClear.isApart_of_erase (hop : op ≠ .minus) (h : op.IsClear ops)
    (herase : op.IsApart (ops.erase op)) : op.IsApart ops := by
  induction ops with
  | nil => exact herase
  | cons a ops ih =>
    by_cases ha : a = op
    · rw [ha, List.erase_cons_head] at herase
      refine List.isChain_cons.2 ⟨fun b _ ham ↦ absurd (ha ▸ ham) hop, herase⟩
    · obtain ⟨hhead, htail⟩ := h.resolve_left ha
      rw [List.erase_cons_tail (by simpa using ha)] at herase
      exact List.isChain_cons.2
        ⟨fun b hb ham ↦ hhead ham b hb, ih htail (List.isChain_cons.1 herase).2⟩

end Operator

/-! ## One operation -/

namespace Row

variable {scale : Int} {op : Operator}

theorem operators_cons (j : Joint) (y : Operand) (rest : List (Joint × Operand)) :
    operators ((j, y) :: rest) = j.operator :: operators rest := rfl

/-- An operation takes the first place of its operator out of a row. -/
theorem operators_collapse? {apply : Operand → Operand → Except Fault Operand} {x : Operand}
    {rest : List (Joint × Operand)} {r : Row Operand}
    (h : collapse? apply op x rest = some (.ok r)) :
    operators r.rest = (operators rest).erase op := by
  induction rest generalizing x r with
  | nil => cases h
  | cons p rest ih =>
    obtain ⟨j, y⟩ := p
    rw [operators_cons]
    rcases collapse?_cons_eq_ok h with ⟨hop, z, -, rfl⟩ | ⟨hop, r', hr', rfl⟩
    · rw [hop, List.erase_cons_head]
    · rw [List.erase_cons_tail (by simpa using hop), ← ih hr']
      rfl

/-- Unsigned literals stay unsigned in an operation other than a difference. -/
theorem IsUnsigned.collapse? (hop : op ≠ .minus) {x : Operand} {rest : List (Joint × Operand)}
    {r : Row Operand} (hx : x.1.negative = false) (hrest : IsUnsigned rest)
    (h : Row.collapse? (Operand.apply scale op) op x rest = some (.ok r)) :
    r.first.1.negative = false ∧ IsUnsigned r.rest := by
  induction rest generalizing x r with
  | nil => cases h
  | cons p rest ih =>
    obtain ⟨j, y⟩ := p
    obtain ⟨hy, hrest⟩ := List.forall_mem_cons.1 hrest
    rcases collapse?_cons_eq_ok h with ⟨-, z, hz, rfl⟩ | ⟨-, r', hr', rfl⟩
    · exact ⟨Operand.negative_apply hop hx hy hz, hrest⟩
    · obtain ⟨hfirst, hrest'⟩ := ih hy hrest hr'
      exact ⟨hx, List.forall_mem_cons.2 ⟨hfirst, hrest'⟩⟩

/-- A sign of the first literal stays where it is in an operation that does not begin with that
literal, and in a product. -/
theorem collapse?_neg {x : Operand} {rest : List (Joint × Operand)}
    (h : op = .times ∨ ∀ b ∈ (operators rest).head?, b ≠ op) :
    collapse? (Operand.apply scale op) op x.neg rest =
      (collapse? (Operand.apply scale op) op x rest).map fun m ↦
        m.map fun r ↦ ⟨r.first.neg, r.rest⟩ := by
  cases rest with
  | nil => rfl
  | cons p rest =>
    obtain ⟨j, y⟩ := p
    rw [collapse?, collapse?]
    by_cases hop : j.operator = op
    · have htimes : op = .times := h.resolve_right fun h ↦ h _ rfl hop
      rw [if_pos hop, if_pos hop, htimes, Operand.apply_times_neg]
      cases Operand.apply scale .times x y <;> rfl
    · rw [if_neg hop, if_neg hop]
      cases collapse? (Operand.apply scale op) op y rest with
      | none => rfl
      | some m => cases m <;> rfl

/-- An operation does the same to a row and to the one with the literals behind minus signs
negative, if it stands behind no minus sign or is a product. -/
theorem collapse?_signedTail (hop : op ≠ .minus) {x : Operand} {rest : List (Joint × Operand)}
    (h : op = .times ∨ op.IsClear (operators rest)) :
    collapse? (Operand.apply scale op) op x (signedTail rest) =
      (collapse? (Operand.apply scale op) op x rest).map fun m ↦ m.map signed := by
  induction rest generalizing x with
  | nil => rfl
  | cons p rest ih =>
    obtain ⟨j, y⟩ := p
    have htail : signedTail ((j, y) :: rest) =
        (j, if j.operator = .minus then y.neg else y) :: signedTail rest := rfl
    rw [htail, collapse?, collapse?]
    by_cases hj : j.operator = op
    · have hminus : j.operator ≠ .minus := fun hm ↦ hop (hj.symm.trans hm)
      rw [if_pos hj, if_pos hj, if_neg hminus]
      cases Operand.apply scale op x y <;> rfl
    · have hrest : op = .times ∨ op.IsClear (operators rest) :=
        h.imp id fun h ↦ (h.resolve_left hj).2
      rw [if_neg hj, if_neg hj, ih hrest]
      by_cases hminus : j.operator = .minus
      · have hneg : op = .times ∨ ∀ b ∈ (operators rest).head?, b ≠ op :=
          h.imp id fun h ↦ (h.resolve_left hj).1 hminus
        rw [if_pos hminus, collapse?_neg hneg]
        cases collapse? (Operand.apply scale op) op y rest with
        | none => rfl
        | some m =>
          cases m with
          | error e => rfl
          | ok r => simp [Except.map, Functor.map, signed, cons, signedTail, hminus]
      · rw [if_neg hminus]
        cases collapse? (Operand.apply scale op) op y rest with
        | none => rfl
        | some m =>
          cases m with
          | error e => rfl
          | ok r => simp [Except.map, Functor.map, signed, cons, signedTail, hminus]

/-- Without blanks, an operation that stands behind no minus sign, or is a product, is done as it is
with blanks. -/
theorem outcome_step_compact (scale : Int) (hop : op ≠ .minus) {r : Row Operand}
    (hfirst : r.first.1.negative = false) (hrest : IsUnsigned r.rest)
    (h : op = .times ∨ op.IsClear (operators r.rest)) :
    (Flat.step scale op r.compact).outcome =
      match collapse? (Operand.apply scale op) op r.first r.rest with
      | some m => m.map compact
      | none => .ok r.compact := by
  have hstep := outcome_step_textBy scale (r := r.signed)
    (reads_mark hop (isSigned_signedTail hrest))
  have hrow : collapse? (Operand.apply scale op) op r.signed.first r.signed.rest =
      (collapse? (Operand.apply scale op) op r.first r.rest).map fun m ↦ m.map signed :=
    collapse?_signedTail hop h
  rw [compact_eq hrest, hstep, hrow]
  cases hc : collapse? (Operand.apply scale op) op r.first r.rest with
  | none => rfl
  | some m =>
    cases m with
    | error e => rfl
    | ok r' =>
      have hr' := (IsUnsigned.collapse? hop hfirst hrest hc).2
      exact congrArg Except.ok (compact_eq hr').symm

/-! ## Working off an operator -/

/-- What an operation keeps of a row is kept when the operator is worked off. -/
theorem workOff_induction {P : Row Operand → Prop}
    (hcollapse : ∀ r r', P r →
      collapse? (Operand.apply scale op) op r.first r.rest = some (.ok r') → P r')
    {r r' : Row Operand} (hr : P r)
    (h : workOff (Operand.apply scale op) op r.first r.rest = .ok r') : P r' := by
  rw [workOff_eq] at h
  cases hc : collapse? (Operand.apply scale op) op r.first r.rest with
  | none =>
    rw [hc] at h
    cases h
    exact hr
  | some m =>
    rw [hc] at h
    obtain ⟨t, rfl, ht⟩ := Outcome.bind_eq_ok_iff.1 h
    exact workOff_induction hcollapse (hcollapse r t hr hc) ht
termination_by r.rest.length
decreasing_by exact length_collapse? hc

/-- All literals of a row are unsigned. -/
def AllUnsigned (r : Row Operand) : Prop := r.first.1.negative = false ∧ IsUnsigned r.rest

theorem AllUnsigned.workOff (hop : op ≠ .minus) {r r' : Row Operand} (hr : r.AllUnsigned)
    (h : Row.workOff (Operand.apply scale op) op r.first r.rest = .ok r') : r'.AllUnsigned :=
  workOff_induction (fun _ _ hr hc ↦ hr.2.collapse? hop hr.1 hc) hr h

/-- Without blanks, quotients and sums that do not stand directly behind minus signs are worked off
as they are with blanks, and all products are. -/
theorem outcome_exhaust_compact (hop : op ≠ .minus) {r : Row Operand} (hr : r.AllUnsigned)
    (h : op = .times ∨ op.IsApart (operators r.rest)) :
    (Flat.exhaust scale op r.compact).outcome =
      (Row.workOff (Operand.apply scale op) op r.first r.rest).map compact := by
  refine outcome_exhaust_of_step
    (P := fun r ↦ r.AllUnsigned ∧ (op = .times ∨ op.IsApart (operators r.rest))) (fun r hr ↦ ?_)
    (fun r r' hr hc ↦ ⟨hr.1.2.collapse? hop hr.1.1 hc, ?_⟩) r ⟨hr, h⟩
  · exact outcome_step_compact scale hop hr.1.1 hr.1.2 (hr.2.imp id Operator.IsApart.isClear)
  · rw [operators_collapse? hc]
    exact hr.2.imp id Operator.IsApart.erase

/-- Where there are only differences, any operator is worked off as it is with blanks. -/
theorem outcome_exhaust_differences (op : Operator) {r : Row Operand}
    (h : ∀ a ∈ operators r.rest, a = .minus) :
    (Flat.exhaust scale op r.compact).outcome =
      (Row.workOff (Operand.apply scale op) op r.first r.rest).map compact := by
  refine outcome_exhaust_of_step (P := fun r ↦ ∀ a ∈ operators r.rest, a = .minus) (fun r hr ↦ ?_)
    (fun r r' hr hc ↦ ?_) r h
  · have hreads := reads_symbolText op fun p hp ↦ hr _ (List.mem_map_of_mem hp)
    exact outcome_step_textBy scale hreads
  · rw [operators_collapse? hc]
    exact fun a ha ↦ hr a (List.mem_of_mem_erase ha)

end Row
end Reckon
