import Reckon.Proofs.Reckoning
import Reckon.Proofs.Row.Excess
import Reckon.Proofs.Row.Minus

/-!
# Rows in which nothing changes

Where blanks are of account, a row has to be named that shows it, for any operators.  It is enough
to look at rows in which a zero or a one is followed by `neutral` numbers: zeros behind plus and
minus signs, and ones behind the others.  Such a row comes to the number that it begins with
(`yields_value`), and it stays of that kind when an operator is worked off (`IsIdle.workOff`).

Written without blanks, it tells where a quotient or a sum stands directly behind a minus sign.  The
operation then begins with the literal that the sign is read to belong to, a negative zero.  What it
comes to has no minus sign any more, so it runs together with the literal in front of it, and the
text has a negative excess from then on (`IsIdle.excess_neg`).
-/

set_option autoImplicit false

namespace Reckon

/-! ## Neutral numbers -/

namespace Operator

/-- The number that is of no account behind an operator. -/
def neutral : Operator → Rat
  | .divide | .times => 1
  | .plus | .minus | .remainder => 0

/-- A neutral number changes nothing. -/
theorem reckon_neutral {op : Operator} (hop : op ≠ .remainder) {x : Rat} (hx : x = 0 ∨ x = 1) :
    (op.reckon 0 x op.neutral).Yields x := by
  cases op with
  | divide =>
    rw [reckon, neutral, if_neg one_ne_zero, div_one]
    rcases hx with rfl | rfl
    · exact Reckoning.yields_round (n := 0) (by norm_num) (by decide +kernel)
    · exact Reckoning.yields_round (n := 10000) (by norm_num [guardPlaces]) (by decide +kernel)
  | times =>
    rw [reckon, neutral, mul_one]
    exact Reckoning.yields_pure x
  | plus =>
    rw [reckon, neutral, add_zero]
    exact Reckoning.yields_pure x
  | minus =>
    rw [reckon, neutral, sub_zero]
    exact Reckoning.yields_pure x
  | remainder => exact absurd rfl hop

theorem neutral_eq (op : Operator) : op.neutral = 0 ∨ op.neutral = 1 := by
  cases op <;> simp [neutral]

end Operator

namespace Row

variable {op : Operator}

/-- Behind each operator of a row stands its neutral number. -/
def IsNeutral {α : Type} (toRat : α → Rat) (rest : List (Joint × α)) : Prop :=
  ∀ p ∈ rest, p.1.operator ≠ .remainder ∧ toRat p.2 = p.1.operator.neutral

theorem isNeutral_cons {α : Type} {toRat : α → Rat} {j : Joint} {y : α} {rest : List (Joint × α)} :
    IsNeutral toRat ((j, y) :: rest) ↔
      (j.operator ≠ .remainder ∧ toRat y = j.operator.neutral) ∧ IsNeutral toRat rest :=
  List.forall_mem_cons

/-- Working off an operator changes nothing in front of neutral numbers. -/
theorem yields_workOff (op : Operator) {x : Rat} (hx : x = 0 ∨ x = 1) {rest : List (Joint × Rat)}
    (hrest : IsNeutral id rest) :
    ∃ r : Row Rat, (workOff (op.reckon 0) op x rest).Yields r ∧ r.first = x ∧
      IsNeutral id r.rest := by
  induction rest generalizing x with
  | nil => exact ⟨⟨x, []⟩, Reckoning.yields_pure _, rfl, hrest⟩
  | cons p rest ih =>
    obtain ⟨j, y⟩ := p
    obtain ⟨⟨hj, hy : y = j.operator.neutral⟩, hneutral⟩ := isNeutral_cons.1 hrest
    have hreckon := Operator.reckon_neutral hj hx
    rw [← hy] at hreckon
    rw [workOff]
    by_cases hop : j.operator = op
    · obtain ⟨r, hr, hfirst, hkept⟩ := ih hx hneutral
      rw [if_pos hop]
      rw [hop] at hreckon
      exact ⟨r, hreckon.bind hr, hfirst, hkept⟩
    · have hy' : y = 0 ∨ y = 1 := hy ▸ j.operator.neutral_eq
      obtain ⟨r, hr, hfirst, hkept⟩ := ih hy' hneutral
      rw [if_neg hop]
      exact ⟨cons x j r, hr.map _, rfl, isNeutral_cons.2 ⟨⟨hj, hfirst.trans hy⟩, hkept⟩⟩

/-- A row of neutral numbers comes to the number in front of them. -/
theorem yields_value {r : Row Rat} (hfirst : r.first = 0 ∨ r.first = 1)
    (hrest : IsNeutral id r.rest) :
    (r.value (Operator.reckon 0)).Yields r.first := by
  have hall : ∀ ops, ∃ t : Row Rat,
      (workOffAll (Operator.reckon 0) ops r).Yields t ∧ t.first = r.first := by
    intro ops
    induction ops generalizing r with
    | nil => exact ⟨r, Reckoning.yields_pure r, rfl⟩
    | cons op ops ih =>
      obtain ⟨t, ht, hsame, hneutral⟩ := yields_workOff op hfirst hrest
      obtain ⟨u, hu, hsame'⟩ := ih (hsame ▸ hfirst) hneutral
      exact ⟨u, ht.bind hu, hsame'.trans hsame⟩
  obtain ⟨t, ht, hsame⟩ := hall Operator.all
  exact hsame ▸ ht.map first

/-! ## Literals that run together -/

/-- An unsigned literal stands behind a minus sign that has no mark of its own. -/
def RunsTogether (rest : List (Joint × Operand)) : Prop :=
  ∃ p ∈ rest, p.1.operator = .minus ∧ p.2.1.negative = false

theorem excess_cons {c : Char} (hd : c.isDigit = false) (hp : c ≠ '.') (s : Text) :
    Text.excess (c :: s) = s.excess := by
  rw [Text.excess, Text.excess, Text.digitRuns, Text.digitRuns, Text.runsBefore, hd,
    List.count_cons_of_ne hp]
  simp

/-- A literal in front takes one off the excess if it runs together with the next one. -/
theorem excess_textBy_mark_cons {x : Operand} (hx : x.1.places ≠ []) (j : Joint) (y : Operand)
    (rest : List (Joint × Operand)) :
    (textBy Joint.mark ⟨x, (j, y) :: rest⟩).excess = (textBy Joint.mark ⟨y, rest⟩).excess -
      if j.operator = .minus ∧ y.1.negative = false then 1 else 0 := by
  have htext : textBy Joint.mark ⟨x, (j, y) :: rest⟩ =
      x.1.text ++ (j.mark ++ textBy Joint.mark ⟨y, rest⟩) := rfl
  rw [htext, x.2.excess_text_append hx]
  by_cases hj : j.operator = .minus
  · have hnext : Text.digitNext false (textBy Joint.mark ⟨y, rest⟩) = !y.1.negative := by
      rw [textBy, Text.digitNext_append, y.2.digitNext_text]
    rw [Joint.mark_of_eq hj, List.nil_append, hnext]
    simp [hj]
  · have hsymbol : j.mark = [j.operator.symbol] := if_neg hj
    have hdigit := Separator.isDigit_symbol j.operator
    rw [hsymbol, List.singleton_append, excess_cons hdigit (Operator.symbol_ne_point _)]
    simp [Text.digitNext, hdigit, hj]

/-- With a mark for every operator but the minus sign, literals with places have no excess, and a
negative one if two of them run together. -/
theorem excess_textBy_mark {r : Row Operand} (hr : r.AllPlaced) :
    (r.textBy Joint.mark).excess ≤ 0 ∧
      (RunsTogether r.rest → (r.textBy Joint.mark).excess < 0) := by
  obtain ⟨x, rest⟩ := r
  induction rest generalizing x with
  | nil =>
    have hx := x.2.excess_text_append hr.1 []
    refine ⟨?_, fun ⟨p, hp, _⟩ ↦ absurd hp List.not_mem_nil⟩
    rw [textBy, tailBy, hx]
    exact Int.le_refl _
  | cons p rest ih =>
    obtain ⟨j, y⟩ := p
    obtain ⟨hle, hlt⟩ := ih y (List.forall_mem_cons.1 hr.2)
    rw [excess_textBy_mark_cons hr.1]
    refine ⟨by split <;> omega, ?_⟩
    rintro ⟨q, hq, hminus, hneg⟩
    rcases List.mem_cons.1 hq with rfl | hq
    · rw [if_pos ⟨hminus, hneg⟩]
      omega
    · have := hlt ⟨q, hq, hminus, hneg⟩
      split <;> omega

theorem operators_signedTail (rest : List (Joint × Operand)) :
    operators (signedTail rest) = operators rest := by
  rw [operators, signedTail, List.map_map]
  rfl

theorem AllPlaced.signed {r : Row Operand} (hr : r.AllPlaced) : r.signed.AllPlaced := by
  refine ⟨hr.1, fun p hp ↦ ?_⟩
  obtain ⟨⟨j, y⟩, hq, rfl⟩ := List.mem_map.1 hp
  have hy : y.1.places ≠ [] := hr.2 _ hq
  by_cases hj : j.operator = .minus
  · simpa [hj, Operand.neg] using hy
  · simpa [hj] using hy

/-! ## Rows of zeros and ones -/

/-- A row of unsigned literals with places, in which a zero or a one is followed by nothing but
neutral numbers. -/
structure IsIdle (r : Row Operand) : Prop where
  unsigned : r.AllUnsigned
  placed : r.AllPlaced
  first : r.first.toRat = 0 ∨ r.first.toRat = 1
  rest : IsNeutral Operand.toRat r.rest

theorem toRat_apply_neutral {x y z : Operand} (hop : op ≠ .remainder)
    (hx : x.toRat = 0 ∨ x.toRat = 1) (hy : y.toRat = op.neutral)
    (h : Operand.apply 0 op x y = .ok z) : z.toRat = x.toRat := by
  have hyields := Operator.reckon_neutral hop hx
  rw [← hy] at hyields
  obtain ⟨z', hz', hsame⟩ := (Operand.agrees_apply 0 op x y).of_yields hyields
  rw [h] at hz'
  cases hz'
  exact hsame

theorem toRat_collapse? {x : Operand} {rest : List (Joint × Operand)} {r : Row Operand}
    (hx : x.toRat = 0 ∨ x.toRat = 1)
    (hrest : IsNeutral Operand.toRat rest)
    (h : collapse? (Operand.apply 0 op) op x rest = some (.ok r)) :
    r.first.toRat = x.toRat ∧ IsNeutral Operand.toRat r.rest := by
  induction rest generalizing x r with
  | nil => cases h
  | cons p rest ih =>
    obtain ⟨j, y⟩ := p
    obtain ⟨⟨hj, hy⟩, hrest⟩ := isNeutral_cons.1 hrest
    rcases collapse?_cons_eq_ok h with ⟨hop, z, hz, rfl⟩ | ⟨-, r', hr', rfl⟩
    · rw [hop] at hj hy
      exact ⟨toRat_apply_neutral hj hx hy hz, hrest⟩
    · obtain ⟨hfirst, hrest'⟩ := ih (hy ▸ j.operator.neutral_eq) hrest hr'
      exact ⟨rfl, isNeutral_cons.2 ⟨⟨hj, hfirst.trans hy⟩, hrest'⟩⟩

theorem IsIdle.collapse? (hop : op ≠ .minus) {r r' : Row Operand} (hr : r.IsIdle)
    (h : Row.collapse? (Operand.apply 0 op) op r.first r.rest = some (.ok r')) : r'.IsIdle := by
  obtain ⟨hfirst, hrest⟩ := toRat_collapse? hr.first hr.rest h
  exact ⟨hr.unsigned.2.collapse? hop hr.unsigned.1 h, hr.placed.collapse? (by decide) h,
    hfirst ▸ hr.first, hrest⟩

theorem IsIdle.workOff (hop : op ≠ .minus) {r r' : Row Operand} (hr : r.IsIdle)
    (h : Row.workOff (Operand.apply 0 op) op r.first r.rest = .ok r') : r'.IsIdle :=
  workOff_induction (fun _ _ hr hc ↦ hr.collapse? hop hc) hr h

/-! ## Operations directly behind minus signs -/

/-- A quotient or a sum that begins with a negative zero has no minus sign. -/
theorem negative_apply_neg {scale : Int} {x y z : Operand} (hop : op = .divide ∨ op = .plus)
    (hzero : x.toRat = 0) (hy : y.1.negative = false)
    (h : Operand.apply scale op x.neg y = .ok z) : z.1.negative = false := by
  obtain ⟨d, hd, rfl⟩ := Outcome.map_eq_ok_iff.1 h
  have hneg : x.1.value.neg.toRat = 0 := by
    have hx : x.1.value.toRat = 0 := hzero
    rw [Decimal.toRat_neg, hx, neg_zero]
  refine (Decimal.negative_toLiteral d).trans ?_
  rcases hop with rfl | rfl
  · rw [Operator.apply] at hd
    refine Operator.negative_quotient (a := x.1.value.neg) ?_ hd
    rw [hneg, zero_div]
  · cases hd
    refine Decimal.negative_add (a := x.1.value.neg) ?_ ?_
    · rw [hneg, zero_add]
      exact Decimal.toRat_nonneg hy
    · have hsign : y.1.value.negative = false := hy
      rw [hsign, Bool.and_false]

/-- Where a quotient or a sum stands directly behind a minus sign, the result runs together with
what is in front. -/
theorem runsTogether_of_not_isClear (hop : op = .divide ∨ op = .plus) {x : Operand}
    {rest : List (Joint × Operand)} {r : Row Operand} (hunsigned : IsUnsigned rest)
    (hneutral : IsNeutral Operand.toRat rest) (hclear : ¬ op.IsClear (operators rest))
    (h : collapse? (Operand.apply 0 op) op x (signedTail rest) = some (.ok r)) :
    RunsTogether r.rest := by
  induction rest generalizing x r with
  | nil => exact absurd trivial hclear
  | cons p rest ih =>
    obtain ⟨j, y⟩ := p
    obtain ⟨hy, hunsigned⟩ := List.forall_mem_cons.1 hunsigned
    obtain ⟨⟨-, hvalue⟩, hneutral⟩ := isNeutral_cons.1 hneutral
    rw [operators_cons, Operator.IsClear, not_or, not_and_or] at hclear
    obtain ⟨hj, hclear⟩ := hclear
    have htail : signedTail ((j, y) :: rest) =
        (j, if j.operator = .minus then y.neg else y) :: signedTail rest := rfl
    rw [htail] at h
    obtain ⟨-, r', hr', rfl⟩ := (collapse?_cons_eq_ok h).resolve_left fun h ↦ hj h.1
    rcases hclear with hhead | hclear
    · -- The operation begins with the literal behind this minus sign.
      rw [Classical.not_imp] at hhead
      obtain ⟨hminus, hhead⟩ := hhead
      refine ⟨_, List.mem_cons_self, hminus, ?_⟩
      cases rest with
      | nil => exact absurd (fun b hb ↦ absurd hb (by simp [operators])) hhead
      | cons q rest =>
        obtain ⟨k, z⟩ := q
        have hk : k.operator = op := by
          by_contra hne
          exact hhead fun b hb ↦ by cases hb; exact hne
        have hkminus : k.operator ≠ .minus := by
          rw [hk]
          rcases hop with rfl | rfl <;> decide
        have htail : signedTail ((k, z) :: rest) =
            (k, if k.operator = .minus then z.neg else z) :: signedTail rest := rfl
        rw [htail, if_neg hkminus, if_pos hminus] at hr'
        obtain ⟨-, w, hw, rfl⟩ := (collapse?_cons_eq_ok hr').resolve_right fun h ↦ h.1 hk
        rw [hminus] at hvalue
        exact negative_apply_neg hop hvalue (List.forall_mem_cons.1 hunsigned).1 hw
    · obtain ⟨q, hq, hminus, hneg⟩ := ih hunsigned hneutral hclear hr'
      exact ⟨q, List.mem_cons_of_mem _ hq, hminus, hneg⟩

/-- An operation finds nothing in a row only if its operator is not there. -/
theorem notMem_of_collapse? {apply : Operand → Operand → Except Fault Operand} {x : Operand}
    {rest : List (Joint × Operand)} (h : Row.collapse? apply op x rest = none) :
    op ∉ operators rest := by
  induction rest generalizing x with
  | nil => exact List.not_mem_nil
  | cons p rest ih =>
    obtain ⟨j, y⟩ := p
    rw [Row.collapse?] at h
    by_cases hop : j.operator = op
    · rw [if_pos hop] at h
      cases h
    · rw [if_neg hop] at h
      rw [operators_cons, List.mem_cons, not_or]
      exact ⟨fun heq ↦ hop heq.symm, ih (Option.map_eq_none_iff.1 h)⟩

theorem isApart_of_notMem {ops : List Operator} (h : op ∉ ops) : op.IsApart ops := by
  induction ops with
  | nil => exact .nil
  | cons a ops ih =>
    rw [List.mem_cons, not_or] at h
    refine List.isChain_cons.2 ⟨fun b hb _ heq ↦ h.2 ?_, ih h.2⟩
    rw [← heq]
    exact List.mem_of_mem_head? hb

/-- Where a quotient or a sum stands directly behind a minus sign, working it off ends with a text
of negative excess. -/
theorem IsIdle.excess_neg (hop : op = .divide ∨ op = .plus) {r : Row Operand} (hr : r.IsIdle)
    (hclear : ¬ op.IsClear (operators r.rest)) {t : Text}
    (h : (Flat.exhaust 0 op r.compact).outcome = .ok t) : t.excess < 0 := by
  have hminus : op ≠ .minus := by rcases hop with rfl | rfl <;> decide
  have hstep := outcome_step_textBy 0 (r := r.signed)
    (reads_mark hminus (isSigned_signedTail hr.unsigned.2))
  rw [← compact_eq hr.unsigned.2] at hstep
  cases hs : Row.collapse? (Operand.apply 0 op) op r.signed.first r.signed.rest with
  | none =>
    have hnot := notMem_of_collapse? hs
    rw [signed, operators_signedTail] at hnot
    exact absurd (isApart_of_notMem hnot).isClear hclear
  | some m =>
    rw [hs] at hstep
    cases m with
    | error e =>
      rw [Flat.outcome_exhaust_of_error hstep] at h
      cases h
    | ok r' =>
      rw [Flat.outcome_exhaust_of_step hstep] at h
      have hruns := runsTogether_of_not_isClear hop hr.unsigned.2 hr.rest hclear hs
      have hless := (excess_textBy_mark (hr.placed.signed.collapse? (by decide) hs)).2 hruns
      exact Int.lt_of_le_of_lt (Flat.excess_exhaust_le (by decide) op _ h) hless

/-- **In a row of zeros and ones, quotients and sums that stand directly behind minus signs make
literals run together.** -/
theorem IsIdle.isApart (hop : op = .divide ∨ op = .plus) {r : Row Operand} (hr : r.IsIdle)
    {t : Text} (h : (Flat.exhaust 0 op r.compact).outcome = .ok t) (ht : 0 ≤ t.excess) :
    op.IsApart (operators r.rest) := by
  have hminus : op ≠ .minus := by rcases hop with rfl | rfl <;> decide
  cases hc : Row.collapse? (Operand.apply 0 op) op r.first r.rest with
  | none => exact isApart_of_notMem (notMem_of_collapse? hc)
  | some m =>
    by_cases hclear : op.IsClear (operators r.rest)
    · have hstep := outcome_step_compact 0 hminus hr.unsigned.1 hr.unsigned.2 (.inr hclear)
      rw [hc] at hstep
      cases m with
      | error e =>
        rw [Flat.outcome_exhaust_of_error hstep] at h
        cases h
      | ok r' =>
        rw [Flat.outcome_exhaust_of_step hstep] at h
        have happart := IsIdle.isApart hop (hr.collapse? hminus hc) h ht
        rw [operators_collapse? hc] at happart
        exact hclear.isApart_of_erase hminus happart
    · have := hr.excess_neg hop hclear h
      omega
termination_by r.rest.length
decreasing_by exact length_collapse? hc

end Row
end Reckon
