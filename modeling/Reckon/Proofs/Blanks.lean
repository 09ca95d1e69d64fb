import Reckon.Proofs.Fuel
import Reckon.Proofs.Row.Neutral

/-!
# Expressions without blanks

Whether the blanks around the operators of an expression may be left out is a matter of its
operators alone.  They may if no quotient stands directly behind a minus sign and no sum anywhere
behind one (`Operator.AreUnambiguous`), whatever unsigned literals stand between them
(`Row.outcome_evaluate_compact`): products never mind a minus sign in front of them, and when sums
are worked off only plus and minus signs are left, so that some sum gets to stand directly behind a
minus sign if any stands behind one at all.

If they are not of that kind, there is an expression with these operators that has a value with
blanks and none without them (`Row.IsIdle.areUnambiguous`, `Row.IsIdle.exists_evaluate`).  So the
condition is exact (`Row.evaluate_compact_iff`).
-/

set_option autoImplicit false

namespace Reckon

/-- Operators that may be written without blanks: no quotient stands directly behind a minus sign,
and no sum anywhere behind one. -/
structure Operator.AreUnambiguous (ops : List Operator) : Prop where
  divide : Operator.divide.IsApart ops
  plus : ops.Pairwise fun a b ↦ a = .minus → b ≠ .plus

namespace Row

variable {scale : Int}

/-! ## Unambiguous operators -/

theorem check_compact {r : Row Operand} (hr : IsUnsigned r.rest) :
    Flat.check r.compact = .ok () := by
  have hcheck := check_edges (r := r.signed) isEdge_nil isEdge_nil fun sep hsep ↦
    reads_mark_bad hsep (isSigned_signedTail hr)
  rwa [List.nil_append, List.append_nil, ← compact_eq hr] at hcheck

/-- Operators are worked off one after the other when each is worked off in what those before it
leave. -/
theorem outcome_exhaustAll_compact {op : Operator} {ops : List Operator} {r : Row Operand}
    (hop : (Flat.exhaust scale op r.compact).outcome =
      (workOff (Operand.apply scale op) op r.first r.rest).map compact)
    (hops : ∀ r', workOff (Operand.apply scale op) op r.first r.rest = .ok r' →
      (Flat.exhaustAll scale ops r'.compact).outcome =
        (workOffAll (Operand.apply scale) ops r').map compact) :
    (Flat.exhaustAll scale (op :: ops) r.compact).outcome =
      (workOffAll (Operand.apply scale) (op :: ops) r).map compact := by
  rw [Flat.outcome_exhaustAll_cons, hop, workOffAll]
  cases hw : workOff (Operand.apply scale op) op r.first r.rest with
  | error e => rfl
  | ok r' => exact hops r' hw

/-- When quotients and products are worked off, the other operators are left. -/
theorem operators_of_products {r r₁ r₂ : Row Operand}
    (h₁ : workOff (Operand.apply scale .divide) .divide r.first r.rest = .ok r₁)
    (h₂ : workOff (Operand.apply scale .times) .times r₁.first r₁.rest = .ok r₂) :
    operators r₂.rest = (operators r.rest).filter fun a ↦ a ≠ .times ∧ a ≠ .divide := by
  rw [operators_of_workOff h₂, operators_of_workOff h₁, List.filter_filter]
  exact List.filter_congr fun a _ ↦ by simp

theorem plus_or_minus {ops : List Operator} (hremainder : .remainder ∉ ops) {a : Operator}
    (ha : a ∈ ops.filter fun a ↦ a ≠ .times ∧ a ≠ .divide) : a = .plus ∨ a = .minus := by
  simp only [List.mem_filter, decide_eq_true_eq] at ha
  obtain ⟨hmem, htimes, hdivide⟩ := ha
  cases a with
  | divide => exact absurd rfl hdivide
  | times => exact absurd rfl htimes
  | plus => exact .inl rfl
  | minus => exact .inr rfl
  | remainder => exact absurd hmem hremainder

theorem compact_of_rest_eq_nil {r : Row Operand} (h : r.rest = []) :
    r.compact = r.first.1.text := by
  rw [compact, textBy, h, tailBy, List.append_nil]

/-- A row without blanks that passes the check is reduced to what it comes to if its operators are
worked off as they are with blanks. -/
theorem outcome_reduce_of_exhaustAll {r : Row Operand} (hcheck : Flat.check r.compact = .ok ())
    (hall : (Flat.exhaustAll scale Operator.all r.compact).outcome =
      (workOffAll (Operand.apply scale) Operator.all r).map compact) :
    (Flat.reduce scale r.compact).outcome =
      (r.value (Operand.apply scale)).map fun x ↦ x.1.text := by
  rw [Flat.outcome_reduce, hcheck, Except.bind, hall, value]
  cases hw : workOffAll (Operand.apply scale) Operator.all r with
  | error e => rfl
  | ok r' => exact congrArg Except.ok (compact_of_rest_eq_nil (rest_eq_nil hw))

/-- Without blanks, a row of unsigned literals is reduced to what it comes to if its operators are
unambiguous. -/
theorem outcome_reduce_compact {r : Row Operand} (hr : r.AllUnsigned)
    (hremainder : .remainder ∉ operators r.rest)
    (h : Operator.AreUnambiguous (operators r.rest)) :
    (Flat.reduce scale r.compact).outcome =
      (r.value (Operand.apply scale)).map fun x ↦ x.1.text := by
  have hall : (Flat.exhaustAll scale Operator.all r.compact).outcome =
      (workOffAll (Operand.apply scale) Operator.all r).map compact := by
    refine outcome_exhaustAll_compact (outcome_exhaust_compact (by decide) hr (.inr h.divide))
      fun r₁ h₁ ↦ ?_
    have hr₁ := hr.workOff (by decide) h₁
    refine outcome_exhaustAll_compact (outcome_exhaust_compact (by decide) hr₁ (.inl rfl))
      fun r₂ h₂ ↦ ?_
    have hr₂ := hr₁.workOff (by decide) h₂
    have hoperators := operators_of_products h₁ h₂
    have hplus : Operator.plus.IsApart (operators r₂.rest) := by
      rw [hoperators]
      exact (h.plus.filter _).isChain
    refine outcome_exhaustAll_compact (outcome_exhaust_compact (by decide) hr₂ (.inr hplus))
      fun r₃ h₃ ↦ ?_
    have hminus : ∀ a ∈ operators r₃.rest, a = .minus := by
      intro a ha
      rw [operators_of_workOff h₃, hoperators, List.mem_filter, decide_eq_true_eq] at ha
      exact (plus_or_minus hremainder ha.1).resolve_left ha.2
    refine outcome_exhaustAll_compact (outcome_exhaust_differences .minus hminus) fun r₄ h₄ ↦ ?_
    have hnil : r₄.rest = [] := by
      have hoperators := operators_of_workOff h₄
      rw [List.filter_eq_nil_iff.2 fun a ha ↦ by simpa using hminus a ha] at hoperators
      exact List.map_eq_nil_iff.1 hoperators
    obtain ⟨x, rest⟩ := r₄
    cases hnil
    exact outcome_exhaustAll_text scale [.remainder] ⟨x, []⟩
  exact outcome_reduce_of_exhaustAll (check_compact hr.2) hall

/-! ## Ambiguous operators -/

/-- If no plus stands directly behind a minus, and there is nothing else, none stands behind a minus
at all. -/
theorem pairwise_of_isApart {ops : List Operator} (h : ∀ a ∈ ops, a = .plus ∨ a = .minus)
    (happart : Operator.plus.IsApart ops) : ops.Pairwise fun a b ↦ a = .minus → b ≠ .plus := by
  induction ops with
  | nil => exact .nil
  | cons a ops ih =>
    obtain ⟨ha, hops⟩ := List.forall_mem_cons.1 h
    obtain ⟨hhead, htail⟩ := List.isChain_cons.1 happart
    have hpairwise := ih hops htail
    refine List.pairwise_cons.2 ⟨fun b hb ham ↦ ?_, hpairwise⟩
    cases ops with
    | nil => cases hb
    | cons c ops =>
      have hc : c = .minus := (hops c List.mem_cons_self).resolve_left (hhead c rfl ham)
      rcases List.mem_cons.1 hb with rfl | hb
      · rw [hc]
        decide
      · exact (List.pairwise_cons.1 hpairwise).1 b hb hc

/-- Without blanks, a row of zeros and ones comes to a number only if its operators are
unambiguous. -/
theorem IsIdle.areUnambiguous {r : Row Operand} (hr : r.IsIdle) {t : Text} {a : Answer}
    (h : (Flat.reduce 0 r.compact).outcome = .ok t) (ha : conclude 0 t = .ok a) :
    Operator.AreUnambiguous (operators r.rest) := by
  have ht : 0 ≤ t.excess := by
    by_contra hneg
    exact conclude_ne_ok_of_excess (by omega) a ha
  rw [Flat.outcome_reduce, check_compact hr.unsigned.2, Except.bind] at h
  rw [Operator.all, Flat.outcome_exhaustAll_cons] at h
  obtain ⟨t₁, h₁, h⟩ := Outcome.bind_eq_ok_iff.1 h
  have hdivide : Operator.divide.IsApart (operators r.rest) :=
    hr.isApart (.inl rfl) h₁ (Int.le_trans ht (Flat.excess_exhaustAll_le (by decide) h))
  obtain ⟨r₁, hr₁, rfl⟩ := Outcome.map_eq_ok_iff.1
    ((outcome_exhaust_compact (by decide) hr.unsigned (.inr hdivide)).symm.trans h₁)
  have hidle₁ := hr.workOff (by decide) hr₁
  rw [Flat.outcome_exhaustAll_cons] at h
  obtain ⟨t₂, h₂, h⟩ := Outcome.bind_eq_ok_iff.1 h
  obtain ⟨r₂, hr₂, rfl⟩ := Outcome.map_eq_ok_iff.1
    ((outcome_exhaust_compact (by decide) hidle₁.unsigned (.inl rfl)).symm.trans h₂)
  have hidle₂ := hidle₁.workOff (by decide) hr₂
  rw [Flat.outcome_exhaustAll_cons] at h
  obtain ⟨t₃, h₃, h⟩ := Outcome.bind_eq_ok_iff.1 h
  have hplus : Operator.plus.IsApart (operators r₂.rest) :=
    hidle₂.isApart (.inr rfl) h₃ (Int.le_trans ht (Flat.excess_exhaustAll_le (by decide) h))
  rw [operators_of_products hr₁ hr₂] at hplus
  have hremainder : .remainder ∉ operators r.rest := by
    intro hmem
    obtain ⟨p, hp, hop⟩ := List.mem_map.1 hmem
    exact (hr.rest p hp).1 hop
  have hpairwise := pairwise_of_isApart (fun a ha ↦ plus_or_minus hremainder ha) hplus
  refine ⟨hdivide, (List.pairwise_filter.1 hpairwise).imp ?_⟩
  rintro a b h rfl rfl
  exact h (by decide) (by decide) rfl rfl

/-! ## Evaluation -/

/-- A text without parentheses is evaluated as a flat expression. -/
theorem outcome_evaluate_of_isBare {s : Text} (hs : Nested.IsBare s) :
    (evaluate scale s).outcome = (Flat.reduce scale s).outcome.bind (conclude scale) := by
  rw [outcome_evaluate, Nested.outcome_reduce, Nested.outcome_resolve_of_isBare scale hs]
  rfl

theorem isBare_compact (r : Row Operand) : Nested.IsBare r.compact :=
  isBare_textBy (fun j ↦ isBare_symbol j.operator) r

theorem outcome_evaluate_text (r : Row Operand) :
    (evaluate scale r.text).outcome =
      (r.value (Operand.apply scale)).bind fun x ↦ conclude scale x.1.text := by
  have hspace : ∀ c ∈ ([] : Text), Text.isSpace c = true := by simp
  have hreduce := outcome_reduce_spaces scale hspace hspace r
  rw [List.nil_append, List.append_nil] at hreduce
  have hbare : Nested.IsBare r.text := isBare_textBy isBare_joint r
  rw [outcome_evaluate_of_isBare hbare, hreduce]
  cases r.value (Operand.apply scale) <;> rfl

/-- Without blanks, an expression of unsigned literals with unambiguous operators is evaluated as it
is with blanks. -/
theorem outcome_evaluate_compact {r : Row Operand} (hr : r.AllUnsigned)
    (hremainder : .remainder ∉ operators r.rest)
    (h : Operator.AreUnambiguous (operators r.rest)) :
    (evaluate scale r.compact).outcome = (evaluate scale r.text).outcome := by
  rw [outcome_evaluate_text, outcome_evaluate_of_isBare (isBare_compact r),
    outcome_reduce_compact hr hremainder h]
  cases r.value (Operand.apply scale) <;> rfl

/-! ## A row that shows what is ambiguous -/

end Row

namespace Operand

theorem toRat_zero : zero.toRat = 0 := (Decimal.isZero_iff _).1 (by decide)

theorem toRat_one : one.toRat = 1 := by
  have hone : one.1.value = ⟨false, 10, -1⟩ := by decide
  rw [toRat, hone, Decimal.toRat]
  norm_num [Decimal.units]

/-- The neutral literal behind an operator. -/
def neutral : Operator → Operand
  | .divide | .times => one
  | .plus | .minus | .remainder => zero

theorem toRat_neutral (op : Operator) : (neutral op).toRat = op.neutral := by
  cases op with
  | divide => exact toRat_one
  | times => exact toRat_one
  | plus => exact toRat_zero
  | minus => exact toRat_zero
  | remainder => exact toRat_zero

theorem neutral_eq (op : Operator) : neutral op = zero ∨ neutral op = one := by
  cases op <;> simp [neutral]

end Operand

namespace Row

/-- All operators have a space on both sides. -/
def IsSpaced (r : Row Operand) : Prop := ∀ p ∈ r.rest, p.1.left = [' '] ∧ p.1.right = [' ']

/-- The row with these operators in which a zero is followed by nothing but neutral literals. -/
def idle (ops : List Operator) (h : ∀ op ∈ ops, op ≠ .remainder) : Row Operand :=
  ⟨.zero, ops.pmap (fun op hop ↦ (.spaced op hop, .neutral op)) h⟩

variable {ops : List Operator} {h : ∀ op ∈ ops, op ≠ .remainder}

theorem exists_of_mem_idle {p : Joint × Operand} (hp : p ∈ (idle ops h).rest) :
    ∃ op hop, p = (.spaced op hop, .neutral op) := by
  obtain ⟨op, hmem, rfl⟩ := List.mem_pmap.1 hp
  exact ⟨op, _, rfl⟩

theorem operators_idle : operators (idle ops h).rest = ops := by
  rw [operators, idle, List.map_pmap]
  exact (List.pmap_eq_map _).trans (List.map_id _)

theorem isSpaced_idle : (idle ops h).IsSpaced := by
  intro p hp
  obtain ⟨op, hop, rfl⟩ := exists_of_mem_idle hp
  exact ⟨rfl, rfl⟩

theorem isIdle_idle : (idle ops h).IsIdle := by
  have hneutral : ∀ op,
      (Operand.neutral op).1.negative = false ∧ (Operand.neutral op).1.places ≠ [] := by
    intro op
    rcases Operand.neutral_eq op with heq | heq <;> rw [heq] <;> decide
  refine ⟨⟨rfl, fun p hp ↦ ?_⟩, ⟨List.cons_ne_nil _ _, fun p hp ↦ ?_⟩, .inl Operand.toRat_zero,
    fun p hp ↦ ?_⟩
  · obtain ⟨op, hop, rfl⟩ := exists_of_mem_idle hp
    exact (hneutral op).1
  · obtain ⟨op, hop, rfl⟩ := exists_of_mem_idle hp
    exact (hneutral op).2
  · obtain ⟨op, hop, rfl⟩ := exists_of_mem_idle hp
    exact ⟨hop, Operand.toRat_neutral op⟩

/-- With blanks, a row of zeros and ones has a value. -/
theorem IsIdle.exists_evaluate {r : Row Operand} (hr : r.IsIdle) :
    ∃ a, (evaluate 0 r.text).outcome = .ok a := by
  have hrest : IsNeutral id (r.map Operand.toRat).rest := by
    intro p hp
    obtain ⟨q, hq, rfl⟩ := List.mem_map.1 hp
    exact hr.rest q hq
  obtain ⟨x, hx, hsame⟩ := (agrees_value r).of_yields (yields_value hr.first hrest)
  have hfirst : x.toRat = 0 ∨ x.toRat = 1 := hsame ▸ hr.first
  have hlong :
      Numeral.isOverlong (nearestEven (x.toRat * (10 : Rat) ^ (0 : Int))).natAbs = false := by
    rcases hfirst with h | h
    · rw [h]
      decide +kernel
    · rw [h]
      decide +kernel
  have hconclude := conclude_text hlong
  rw [outcome_evaluate_text, hx, Except.bind]
  exact ⟨_, hconclude⟩

/-- **Blanks around operators are of no account exactly where the operators are unambiguous.**
Expressions of unsigned literals with these operators all have the same value with a space on both
sides of each operator as without any, if they have one with spaces, just when no quotient stands
directly behind a minus sign and no sum anywhere behind one. -/
theorem evaluate_compact_iff (hremainder : .remainder ∉ ops) :
    (∀ (scale : Int) (r : Row Operand), operators r.rest = ops → r.AllUnsigned → r.IsSpaced →
      ∀ a, (evaluate scale r.text).outcome = .ok a →
        ∃ b, (evaluate scale r.compact).outcome = .ok b ∧ b.value = a.value) ↔
      Operator.AreUnambiguous ops := by
  constructor
  · intro h
    have hops : ∀ op ∈ ops, op ≠ .remainder := fun op hop heq ↦ hremainder (heq ▸ hop)
    have hidle : (idle ops hops).IsIdle := isIdle_idle
    obtain ⟨a, ha⟩ := hidle.exists_evaluate
    obtain ⟨b, hb, -⟩ := h 0 (idle ops hops) operators_idle hidle.unsigned isSpaced_idle a ha
    rw [outcome_evaluate_of_isBare (isBare_compact _)] at hb
    obtain ⟨t, ht, hb⟩ := Outcome.bind_eq_ok_iff.1 hb
    have hsafe := hidle.areUnambiguous ht hb
    rwa [operators_idle] at hsafe
  · rintro h scale r rfl hunsigned - a ha
    exact ⟨a, (outcome_evaluate_compact hunsigned hremainder h).trans ha, rfl⟩

/-- Blanks are of account in a difference with a sum behind it. -/
theorem evaluate_compact_iff_minus_plus :
    .remainder ∉ [Operator.minus, Operator.plus] ∧
      ¬ ∀ (scale : Int) (r : Row Operand), operators r.rest = [.minus, .plus] → r.AllUnsigned →
        r.IsSpaced → ∀ a, (evaluate scale r.text).outcome = .ok a →
          ∃ b, (evaluate scale r.compact).outcome = .ok b ∧ b.value = a.value := by
  have hremainder : .remainder ∉ [Operator.minus, Operator.plus] := by decide
  refine ⟨hremainder, fun h ↦ ?_⟩
  have hplus := ((evaluate_compact_iff hremainder).1 h).plus
  exact List.rel_of_pairwise_cons hplus List.mem_cons_self rfl rfl

/-- Without blanks, `10 - 5 + 8` has the value 103 instead of -3: the minus sign is read as that of
the 5, and the sum of -5 and 8 runs together with the 10. -/
theorem evaluate_minus_plus :
    (evaluate 2 "10 - 5 + 8".toList).outcome = .ok ⟨⟨true, 300, -2⟩, false⟩ ∧
      (evaluate 2 "10-5+8".toList).outcome = .ok ⟨⟨false, 10300, -2⟩, false⟩ := by
  constructor
  · refine outcome_evaluate_of_within 9 ?_
    decide +kernel
  · refine outcome_evaluate_of_within 9 ?_
    decide +kernel

end Row
end Reckon
