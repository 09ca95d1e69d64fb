import Reckon.Calculation
import Reckon.Proofs.Course
import Reckon.Proofs.Decimal.Exact
import Reckon.Proofs.Decimal.Reading
import Reckon.Proofs.Parentheses.Pass

/-!
# Which faults an evaluation can come to

Many texts are looked at in the course of an evaluation, groups first and then what is left of the
expression, each of them rewritten many times over.  `Fault.Arises` says where among all this a
fault can come up: a flat expression that is reduced has a bad block, the divisor of an operation in
it is zero, its quotient takes too many digits, or what is left in the end is no number or takes too
many digits itself.

That is all there is (`arises_of_outcome_evaluate`), and an evaluation has a value just if none of
it arises (`Fault.Arises.exists_fault`).  In particular no step is of an operator that does not
exist, and no operand is captured that cannot be read.

A fault is found in three stages.  Of an operation it is read off the operands
(`Operator.apply_eq_error_iff`), of a flat reduction off the steps that it takes
(`Flat.outcome_reduce_eq_error_iff`), and of an evaluation off the flat reductions that belong to it
(`Nested.IsFragment`).
-/

set_option autoImplicit false

namespace Reckon

variable {scale : Int}

/-! ## Operations -/

/-- Rounded at a scale, a number takes more digits than may be written out. -/
def Decimal.IsTooLong (scale : Int) (x : Rat) : Prop :=
  Numeral.maxDigits < (Numeral.digits (nearestEven (x * (10 : Rat) ^ scale)).natAbs).length

theorem Decimal.isTooLong_iff {x : Rat} :
    IsTooLong scale x ↔
      Numeral.isOverlong (nearestEven (x * (10 : Rat) ^ scale)).natAbs = true := by
  rw [IsTooLong, Numeral.isOverlong_iff]

theorem Decimal.round?_eq_none_iff {x : Rat} : round? x scale = none ↔ IsTooLong scale x := by
  rw [isTooLong_iff, round?]
  split
  · next h => simp [h]
  · next h => simp [h]

namespace Operator

/-- What goes wrong with an operation on two decimals. -/
inductive Fails (scale : Int) : Operator → Decimal → Decimal → Fault → Prop where
  /-- Nothing can be divided by zero. -/
  | division {a b : Decimal} (hb : b.toRat = 0) : Fails scale .divide a b .divisionByZero
  /-- There is no remainder by zero either. -/
  | remainder {a b : Decimal} (hb : b.toRat = 0) : Fails scale .remainder a b .remainderByZero
  /-- A quotient takes too many digits. -/
  | quotient {a b : Decimal} (hb : b.toRat ≠ 0)
      (hlong : Decimal.IsTooLong (scale + guardPlaces) (a.toRat / b.toRat)) :
      Fails scale .divide a b .overlong

variable {op : Operator} {a b : Decimal} {e : Fault}

theorem quotient_eq_error_iff :
    quotient scale a b = .error e ↔ Fails scale .divide a b e := by
  rw [quotient]
  constructor
  · intro h
    split at h
    · next hb =>
      cases h
      exact .division ((Decimal.isZero_iff b).1 hb)
    · next hb =>
      split at h
      · cases h
      · next hround =>
        cases h
        have hne : b.toRat ≠ 0 := fun h ↦ hb ((Decimal.isZero_iff b).2 h)
        exact .quotient hne (Decimal.round?_eq_none_iff.1 hround)
  · intro h
    cases h with
    | division hb => rw [if_pos ((Decimal.isZero_iff b).2 hb)]
    | quotient hb hlong =>
      rw [if_neg fun h ↦ hb ((Decimal.isZero_iff b).1 h), Decimal.round?_eq_none_iff.2 hlong]

/-- An operation ends with a fault exactly where something goes wrong with it. -/
theorem apply_eq_error_iff : op.apply scale a b = .error e ↔ Fails scale op a b e := by
  rw [apply.eq_def]
  cases op with
  | divide => exact quotient_eq_error_iff
  | remainder =>
    constructor
    · intro h
      dsimp only at h
      split at h
      · next hb =>
        cases h
        exact .remainder ((Decimal.isZero_iff b).1 hb)
      · cases h
    · intro h
      cases h with
      | remainder hb => exact if_pos ((Decimal.isZero_iff b).2 hb)
  | times => constructor <;> (intro h; cases h)
  | plus => constructor <;> (intro h; cases h)
  | minus => constructor <;> (intro h; cases h)

end Operator

/-! ## Flat reductions -/

namespace Flat

variable {op : Operator} {s : Text} {e : Fault}

/-- What is rejected as a block is a part of the text. -/
theorem isInfix_of_badBlock? {block : Text} (h : badBlock? s = some block) : block <:+: s := by
  obtain ⟨sep, -, h⟩ := List.exists_of_findSome?_eq_some h
  obtain ⟨o, ho, rfl⟩ := Option.map_eq_some_iff.1 h
  refine ⟨o.before, o.after, ?_⟩
  rw [List.append_assoc]
  exact (Pair.pattern sep).append_of_search ho

example : badBlock? "1 + (3 4)".toList = some "3 4".toList := by decide

theorem check_eq_error_iff :
    check s = .error e ↔ ∃ block, badBlock? s = some block ∧ e = .badBlock block s := by
  rw [check]
  split
  · next block h => simp [h, eq_comm]
  · next h => simp [h]

theorem outcome_step_eq_error_iff :
    (step scale op s).outcome = .error e ↔
      ∃ o, (operation op).search s = some o ∧
        op.Fails scale o.found.left.value o.found.right.value e := by
  rw [outcome_step, Outcome.map_eq_error_iff]
  cases ho : (operation op).search s with
  | none =>
    rw [outcome_collapse_of_none ho]
    simp
  | some o =>
    rw [outcome_collapse_of_search ho, Outcome.map_eq_error_iff, Operator.apply_eq_error_iff]
    simp

/-- In the course of a flat reduction, an operation is to be done on a pair of literals. -/
def Operates (scale : Int) (s : Text) (op : Operator) (pair : Pair) : Prop :=
  check s = .ok () ∧
    ∃ t o, Visits scale Operator.all s op t ∧ (operation op).search t = some o ∧ o.found = pair

/-- A flat reduction ends with a fault exactly if the text has a bad block, or something goes wrong
with one of the operations. -/
theorem outcome_reduce_eq_error_iff :
    (reduce scale s).outcome = .error e ↔
      check s = .error e ∨
        ∃ op pair, Operates scale s op pair ∧ op.Fails scale pair.left.value pair.right.value e := by
  rw [outcome_reduce, Outcome.bind_eq_error_iff]
  simp only [outcome_exhaustAll_eq_error_iff, outcome_step_eq_error_iff]
  refine or_congr_right ⟨?_, ?_⟩
  · rintro ⟨u, hcheck, op, t, hvisit, o, ho, hfails⟩
    exact ⟨op, o.found, ⟨hcheck, t, o, hvisit, ho, rfl⟩, hfails⟩
  · rintro ⟨op, pair, ⟨hcheck, t, o, hvisit, ho, rfl⟩, hfails⟩
    exact ⟨(), hcheck, op, t, hvisit, o, ho, hfails⟩

end Flat

/-! ## The flat expressions of an evaluation -/

namespace Nested

/-- What stands in the groups of a forest. -/
def Forest.groups : Forest → List Forest
  | nil => []
  | char _ rest => rest.groups
  | group inner rest => inner :: (inner.groups ++ rest.groups)

/-- Some group has a fault if it cannot be reduced when the groups inside it have been. -/
theorem Forest.fails_iff {f : Forest} {e : Fault} :
    f.Fails scale e ↔
      ∃ inner ∈ f.groups, ∃ t, inner.flatten scale = .ok t ∧ enclosed scale t = .error e := by
  constructor
  · intro h
    induction h with
    | @here inner rest t e ht he => exact ⟨inner, List.mem_cons_self, t, ht, he⟩
    | inside _ ih =>
      obtain ⟨inner, hinner, hfails⟩ := ih
      exact ⟨inner, List.mem_cons_of_mem _ (List.mem_append_left _ hinner), hfails⟩
    | behind _ ih =>
      obtain ⟨inner, hinner, hfails⟩ := ih
      exact ⟨inner, List.mem_cons_of_mem _ (List.mem_append_right _ hinner), hfails⟩
    | char _ ih => exact ih
  · rintro ⟨inner, hinner, t, ht, he⟩
    induction f with
    | nil => cases hinner
    | char c rest ih => exact .char (ih hinner)
    | group first rest ihfirst ihrest =>
      rcases List.mem_cons.1 hinner with rfl | hinner
      · exact .here ht he
      · rcases List.mem_append.1 hinner with hinner | hinner
        · exact .inside (ihfirst hinner)
        · exact .behind (ihrest hinner)

/-- A flat expression is reduced when a text is: it is a group whose inner groups have been
replaced, or what the passes leave of the text. -/
def IsFragment (scale : Int) (s fragment : Text) : Prop :=
  (∃ inner ∈ (Forest.ofText s).groups, ∃ t, inner.flatten scale = .ok t ∧
    fragment = '(' :: (t ++ [')'])) ∨
  (resolve scale s).outcome = .ok fragment

variable {s : Text} {e : Fault}

/-- The fault of a reduction is that of a flat expression. -/
theorem exists_fragment_of_outcome_reduce (h : (reduce scale s).outcome = .error e) :
    ∃ fragment, IsFragment scale s fragment ∧ (Flat.reduce scale fragment).outcome = .error e := by
  rw [outcome_reduce] at h
  rcases Outcome.bind_eq_error_iff.1 h with h | ⟨t, ht, h⟩
  · obtain ⟨inner, hinner, t, ht, he⟩ := Forest.fails_iff.1 (fails_of_outcome_resolve h)
    exact ⟨_, .inl ⟨inner, hinner, t, ht, rfl⟩, he⟩
  · exact ⟨t, .inr ht, h⟩

/-- If a flat expression has a fault, so has the reduction. -/
theorem IsFragment.exists_fault {fragment : Text} (h : IsFragment scale s fragment)
    (he : (Flat.reduce scale fragment).outcome = .error e) :
    ∃ e, (reduce scale s).outcome = .error e := by
  rw [Outcome.exists_error_iff, outcome_reduce]
  rintro ⟨u, hu⟩
  obtain ⟨t, ht, hu⟩ := Outcome.bind_eq_ok_iff.1 hu
  rcases h with ⟨inner, hinner, v, hv, rfl⟩ | h
  · have hfails : (Forest.ofText s).Fails scale e := Forest.fails_iff.2 ⟨inner, hinner, v, hv, he⟩
    exact hfails.flatten_ne_ok t (outcome_resolve_eq_ok_iff.1 ht)
  · rw [h] at ht
    cases ht
    rw [he] at hu
    cases hu

/-- In the course of an evaluation, an operation is to be done on a pair of literals. -/
def Operates (scale : Int) (s : Text) (op : Operator) (pair : Pair) : Prop :=
  ∃ fragment, IsFragment scale s fragment ∧ Flat.Operates scale fragment op pair

end Nested

/-! ## Evaluations -/

/-- A fault can come up in the evaluation of a text, and is then reported as of this kind and under
this code. -/
inductive Fault.Arises (scale : Int) (s : Text) : Fault → Report.Kind → Text → Prop where
  /-- One of the flat expressions has a bad block, and is rejected for it. -/
  | badBlock {block fragment : Text} (hfragment : Nested.IsFragment scale s fragment)
      (hblock : block <:+: fragment)
      (hcheck : Flat.check fragment = .error (.badBlock block fragment)) :
      Arises scale s (.badBlock block fragment) (.badBlock (some block) (some fragment))
        "3011".toList
  /-- Something is to be divided by zero. -/
  | divisionByZero {pair : Pair} (hpair : Nested.Operates scale s .divide pair)
      (hzero : pair.right.value.toRat = 0) :
      Arises scale s .divisionByZero .division "3003".toList
  /-- A remainder by zero is to be taken. -/
  | remainderByZero {pair : Pair} (hpair : Nested.Operates scale s .remainder pair)
      (hzero : pair.right.value.toRat = 0) :
      Arises scale s .remainderByZero .division "3003".toList
  /-- What is left in the end is no number. -/
  | notNumeral {t : Text} (ht : (Nested.reduce scale s).outcome = .ok t)
      (hliteral : Literal.ofText? t = none) :
      Arises scale s (.notNumeral t) (.badResult (some t)) "3031".toList
  /-- A quotient takes too many digits when it is rounded. -/
  | longQuotient {pair : Pair} (hpair : Nested.Operates scale s .divide pair)
      (hne : pair.right.value.toRat ≠ 0)
      (hlong : Decimal.IsTooLong (scale + Operator.guardPlaces)
        (pair.left.value.toRat / pair.right.value.toRat)) :
      Arises scale s .overlong .general "9999".toList
  /-- The number that is left in the end does. -/
  | longAnswer {t : Text} {l : Literal} (ht : (Nested.reduce scale s).outcome = .ok t)
      (hliteral : Literal.ofText? t = some l) (hlong : Decimal.IsTooLong scale l.value.toRat) :
      Arises scale s .overlong .general "9999".toList

variable {s t : Text} {e : Fault}

theorem conclude_eq_error_iff :
    conclude scale t = .error e ↔
      (Literal.ofText? t = none ∧ e = .notNumeral t) ∨
        ∃ l, Literal.ofText? t = some l ∧ Decimal.IsTooLong scale l.value.toRat ∧ e = .overlong := by
  rw [conclude]
  cases hliteral : Literal.ofText? t with
  | none => simp [eq_comm]
  | some l =>
    dsimp only
    cases hround : Decimal.round? l.value.toRat scale with
    | none => simp [Decimal.round?_eq_none_iff.1 hround, eq_comm]
    | some d =>
      have hshort : ¬ Decimal.IsTooLong scale l.value.toRat := by
        simp [← Decimal.round?_eq_none_iff, hround]
      simp [hshort]

theorem arises_of_fragment {fragment : Text} (h : Nested.IsFragment scale s fragment)
    (he : (Flat.reduce scale fragment).outcome = .error e) :
    ∃ kind code, e.Arises scale s kind code := by
  rcases Flat.outcome_reduce_eq_error_iff.1 he with hcheck | ⟨op, pair, hpair, hfails⟩
  · obtain ⟨block, hblock, rfl⟩ := Flat.check_eq_error_iff.1 hcheck
    exact ⟨_, _, .badBlock h (Flat.isInfix_of_badBlock? hblock) hcheck⟩
  · have hoperates : Nested.Operates scale s op pair := ⟨fragment, h, hpair⟩
    cases hfails with
    | division hzero => exact ⟨_, _, .divisionByZero hoperates hzero⟩
    | remainder hzero => exact ⟨_, _, .remainderByZero hoperates hzero⟩
    | quotient hne hlong => exact ⟨_, _, .longQuotient hoperates hne hlong⟩

/-- The fault that an evaluation ends with is one that can come up in it. -/
theorem arises_of_outcome_evaluate (h : (evaluate scale s).outcome = .error e) :
    ∃ kind code, e.Arises scale s kind code := by
  rw [outcome_evaluate] at h
  rcases Outcome.bind_eq_error_iff.1 h with h | ⟨t, ht, h⟩
  · obtain ⟨fragment, hfragment, he⟩ := Nested.exists_fragment_of_outcome_reduce h
    exact arises_of_fragment hfragment he
  · rcases conclude_eq_error_iff.1 h with ⟨hliteral, rfl⟩ | ⟨l, hliteral, hlong, rfl⟩
    · exact ⟨_, _, .notNumeral ht hliteral⟩
    · exact ⟨_, _, .longAnswer ht hliteral hlong⟩

theorem Nested.Operates.exists_fault {op : Operator} {pair : Pair}
    (h : Operates scale s op pair) (hfails : op.Fails scale pair.left.value pair.right.value e) :
    ∃ e, (reduce scale s).outcome = .error e := by
  obtain ⟨fragment, hfragment, hpair⟩ := h
  exact hfragment.exists_fault (Flat.outcome_reduce_eq_error_iff.2 (.inr ⟨op, pair, hpair, hfails⟩))

namespace Fault.Arises

variable {kind : Report.Kind} {code : Text}

/-- Where a fault can come up, the evaluation ends with one. -/
theorem exists_fault (h : e.Arises scale s kind code) :
    ∃ e, (evaluate scale s).outcome = .error e := by
  have hreduce : (∃ e, (Nested.reduce scale s).outcome = .error e) →
      ∃ e, (evaluate scale s).outcome = .error e := by
    rintro ⟨e, he⟩
    exact ⟨e, by rw [outcome_evaluate, he]; rfl⟩
  have hconclude : ∀ {t e}, (Nested.reduce scale s).outcome = .ok t →
      conclude scale t = .error e → ∃ e, (evaluate scale s).outcome = .error e := by
    intro t e ht he
    exact ⟨e, by rw [outcome_evaluate, ht]; exact he⟩
  cases h with
  | badBlock hfragment _ hcheck =>
    exact hreduce (hfragment.exists_fault (Flat.outcome_reduce_eq_error_iff.2 (.inl hcheck)))
  | divisionByZero hpair hzero => exact hreduce (hpair.exists_fault (.division hzero))
  | remainderByZero hpair hzero => exact hreduce (hpair.exists_fault (.remainder hzero))
  | longQuotient hpair hne hlong => exact hreduce (hpair.exists_fault (.quotient hne hlong))
  | notNumeral ht hliteral =>
    exact hconclude ht (conclude_eq_error_iff.2 (.inl ⟨hliteral, rfl⟩))
  | longAnswer ht hliteral hlong =>
    exact hconclude ht (conclude_eq_error_iff.2 (.inr ⟨_, hliteral, hlong, rfl⟩))

theorem report_eq (h : e.Arises scale s kind code) :
    (Report.ofFault e).about (.string s) = ⟨kind, e.message, code, some (.string s)⟩ := by
  cases h <;> rfl

/-- Too many digits are the only fault that is no verdict on the expression. -/
theorem isVerdict_iff (h : e.Arises scale s kind code) : e.isVerdict = true ↔ e ≠ .overlong := by
  cases h <;> simp [isVerdict]

end Fault.Arises

/-! ## Calculations -/

theorem result_calculate_eq_error_iff {store : Settings.Store} {report : Report} :
    (calculate store (.string s) (some scale)).result = .error report ↔
      ∃ e, (evaluate scale s).outcome = .error e ∧
        report = (Report.ofFault e).about (.string s) := by
  rw [calculate, calculateAt]
  cases h : (evaluate scale s).outcome with
  | ok answer => simp [Evaluator.evaluate, h]
  | error e => simp [Evaluator.evaluate, h, Calculation.rejected, eq_comm]

theorem result_calculate_eq_ok_iff {store : Settings.Store} {answer : Text} :
    (calculate store (.string s) (some scale)).result = .ok answer ↔
      ∃ a, (evaluate scale s).outcome = .ok a ∧ answer = a.render := by
  rw [calculate, calculateAt]
  cases h : (evaluate scale s).outcome with
  | ok a => simp [Evaluator.evaluate, h, eq_comm]
  | error e => simp [Evaluator.evaluate, h, Calculation.rejected]

/-- **What can go wrong with an evaluation, and how it is reported.**  An evaluation has a value
unless a fault arises in it, and what it ends with otherwise is such a fault; each is reported about
the whole expression, under its code, and all but an excess of digits are verdicts on it.  A
calculation ends with the report of the fault of its evaluation, and with no other.  Every operator
is found under its symbol, and every number that is captured is read. -/
theorem faults_of_evaluation (scale : Int) (s : Text) :
    ((∃ e, (evaluate scale s).outcome = .error e) ↔
        ∃ (e : Fault) (kind : Report.Kind) (code : Text), e.Arises scale s kind code) ∧
      (∀ e, (evaluate scale s).outcome = .error e →
        ∃ kind code, e.Arises scale s kind code ∧
          (Report.ofFault e).about (.string s) = ⟨kind, e.message, code, some (.string s)⟩ ∧
          (e.isVerdict = true ↔ e ≠ .overlong)) ∧
      (∀ store report, (calculate store (.string s) (some scale)).result = .error report ↔
        ∃ e, (evaluate scale s).outcome = .error e ∧
          report = (Report.ofFault e).about (.string s)) ∧
      (∀ op t, Flat.stepNamed scale [op.symbol] t = Flat.step scale op t) ∧
      (∀ op pair, Nested.Operates scale s op pair →
        Decimal.ofText? pair.left.text = some pair.left.value ∧
          Decimal.ofText? pair.right.text = some pair.right.value) ∧
      ∀ t l, Literal.ofText? t = some l → Decimal.ofText? t = some l.value := by
  refine ⟨⟨?_, ?_⟩, ?_, ?_, ?_, ?_, ?_⟩
  · rintro ⟨e, he⟩
    exact ⟨e, arises_of_outcome_evaluate he⟩
  · rintro ⟨e, kind, code, harises⟩
    exact harises.exists_fault
  · intro e he
    obtain ⟨kind, code, harises⟩ := arises_of_outcome_evaluate he
    exact ⟨kind, code, harises, harises.report_eq, harises.isVerdict_iff⟩
  · exact fun store report ↦ result_calculate_eq_error_iff
  · intro op t
    have hop : Operator.ofText? [op.symbol] = some op := by cases op <;> rfl
    rw [Flat.stepNamed, hop]
  · rintro op pair ⟨fragment, -, -, t, o, -, ho, rfl⟩
    exact Decimal.ofText?_of_search ho
  · exact fun t l ↦ Decimal.ofText?_of_literal

end Reckon
