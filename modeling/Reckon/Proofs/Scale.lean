import Reckon.Proofs.Faults
import Reckon.Proofs.Fuel
import Reckon.Proofs.Reckoning

/-!
# Without a division the scale is of no account before the end

The scale of an evaluation is asked for twice: when a quotient is taken, and when the number that is
left is rounded.  A text without a division sign has no quotient in it and never comes to have one,
since a result brings digits, points and minus signs into a text and nothing else
(`Flat.not_mem_slash_of_step`).  So to reduce it is to take the same steps at every scale, whether
that ends with a text or with a fault (`Nested.reduce_eq_of_not_mem_slash`), and one reduction is
enough to know the values at all scales (`reduce_same_at_all_scales`).
-/

set_option autoImplicit false

namespace Reckon

variable {s t : Text} {op : Operator}

/-! ## Steps -/

/-- A literal is written without a division sign. -/
theorem Literal.IsProper.not_mem_slash {l : Literal} (h : l.IsProper) : '/' ∉ l.text := by
  intro hmem
  rcases h.mem_text hmem with h | h | h
  · cases h
  · exact absurd h (by decide)
  · exact absurd h (by decide)

/-- Only a quotient depends on the scale. -/
theorem Operator.apply_eq_of_ne_divide (h : op ≠ .divide) (scale₁ scale₂ : Int) (a b : Decimal) :
    op.apply scale₁ a b = op.apply scale₂ a b := by
  cases op with
  | divide => exact absurd rfl h
  | times => rfl
  | plus => rfl
  | minus => rfl
  | remainder => rfl

namespace Flat

variable (scale scale₁ scale₂ : Int)

/-- A text without a division sign has no quotient in it. -/
theorem search_divide_eq_none (hs : '/' ∉ s) : (operation .divide).search s = none := by
  cases ho : (operation .divide).search s with
  | none => rfl
  | some o =>
    obtain ⟨-, -, ⟨t, rest, hgap⟩, happend⟩ := exists_of_search_operation ho
    refine absurd ?_ hs
    rw [← happend, Pair.text]
    simp [show '/' ∈ o.found.gap from Separator.symbol_mem_gap hgap]

theorem step_eq_of_not_mem_slash (hs : '/' ∉ s) : step scale₁ op s = step scale₂ op s := by
  have hcollapse : collapse scale₁ op s = collapse scale₂ op s := by
    rw [collapse, collapse]
    by_cases hop : op = .divide
    · rw [hop, search_divide_eq_none hs]
    · simp only [Operator.apply_eq_of_ne_divide hop scale₁ scale₂]
  rw [step, step, hcollapse]

variable {scale scale₁ scale₂}

/-- A step brings no division sign into a text. -/
theorem not_mem_slash_of_step (hs : '/' ∉ s) (h : (step scale op s).outcome = .ok t) :
    '/' ∉ t := by
  have hunwrap : ∀ u : Text, '/' ∉ u → '/' ∉ unwrap u := by
    intro u hu hmem
    obtain ⟨x, y, hxy, -⟩ := exists_append_unwrap u
    exact hu (by rw [hxy]; simp [hmem])
  rcases eq_unwrap_of_step h with ⟨-, rfl⟩ | ⟨o, d, ho, -, rfl⟩
  · exact hunwrap s hs
  · rw [← (operation op).append_of_search ho] at hs
    simp only [List.mem_append, not_or] at hs
    refine hunwrap _ ?_
    simp only [List.mem_append, not_or]
    exact ⟨hs.1, d.isProper_toLiteral.not_mem_slash, hs.2.2⟩

/-! ## Flat reductions -/

theorem exhaust_eq_of_not_mem_slash {s : Text} (hs : '/' ∉ s) :
    exhaust scale₁ op s = exhaust scale₂ op s := by
  rw [exhaust_eq_bind, exhaust_eq_bind scale₂, ← step_eq_of_not_mem_slash scale₁ scale₂ hs]
  refine Traced.bind_congr fun t ht ↦ ?_
  by_cases hts : t = s
  · rw [if_pos hts, if_pos hts]
  · rw [if_neg hts, if_neg hts, exhaust_eq_of_not_mem_slash (not_mem_slash_of_step hs ht)]
termination_by (weight s, s.length)
decreasing_by exact step_lt ht hts

theorem exhaustAll_eq_of_not_mem_slash {ops : List Operator} (hs : '/' ∉ s) :
    exhaustAll scale₁ ops s = exhaustAll scale₂ ops s := by
  induction ops generalizing s with
  | nil => rfl
  | cons op ops ih =>
    have hexhaust : exhaust scale₁ op s = exhaust scale₂ op s := exhaust_eq_of_not_mem_slash hs
    rw [exhaustAll, exhaustAll, hexhaust]
    refine Traced.bind_congr fun t ht ↦ ih ?_
    exact exhaust_induction (motive := fun u ↦ '/' ∉ u)
      (fun _ _ _ ↦ not_mem_slash_of_step) ht hs

theorem reduce_eq_of_not_mem_slash (hs : '/' ∉ s) : reduce scale₁ s = reduce scale₂ s := by
  have hexhaust : exhaustAll scale₁ Operator.all s = exhaustAll scale₂ Operator.all s :=
    exhaustAll_eq_of_not_mem_slash hs
  rw [reduce, reduce, hexhaust]

theorem not_mem_slash_of_reduce (hs : '/' ∉ s) (h : (reduce scale s).outcome = .ok t) :
    '/' ∉ t :=
  reduce_induction (motive := fun u ↦ '/' ∉ u) (fun _ _ _ ↦ not_mem_slash_of_step) h hs

end Flat

/-! ## Passes -/

namespace Nested

variable {scale scale₁ scale₂ : Int}

theorem replaceGroups_eq_of_not_mem_slash {ps : List (Char ⊕ Text)}
    (hps : '/' ∉ ps.flatMap Group.pattern.pieceText) :
    replaceGroups scale₁ ps = replaceGroups scale₂ ps := by
  induction ps with
  | nil => rfl
  | cons piece ps ih =>
    simp only [List.flatMap_cons, List.mem_append, not_or] at hps
    have hrest := ih hps.2
    cases piece with
    | inl c => rw [replaceGroups, replaceGroups, hrest]
    | inr group =>
      have hgroup : Flat.reduce scale₁ group = Flat.reduce scale₂ group :=
        Flat.reduce_eq_of_not_mem_slash hps.1
      rw [replaceGroups, replaceGroups, hrest, hgroup]

theorem not_mem_slash_of_replaceGroups {ps : List (Char ⊕ Text)}
    (hps : '/' ∉ ps.flatMap Group.pattern.pieceText)
    (h : (replaceGroups scale ps).outcome = .ok t) : '/' ∉ t := by
  induction ps generalizing t with
  | nil =>
    cases h
    simp
  | cons piece ps ih =>
    simp only [List.flatMap_cons, List.mem_append, not_or] at hps
    cases piece with
    | inl c =>
      rw [replaceGroups, Traced.outcome_bind] at h
      obtain ⟨u, hu, h⟩ := Outcome.bind_eq_ok_iff.1 h
      cases h
      exact fun hmem ↦ (List.mem_append (s := [c])).1 hmem |>.elim hps.1 (ih hps.2 hu)
    | inr group =>
      rw [replaceGroups, Traced.outcome_bind] at h
      obtain ⟨r, hr, h⟩ := Outcome.bind_eq_ok_iff.1 h
      simp only [Traced.outcome_bind, Traced.outcome_record, Except.bind] at h
      obtain ⟨u, hu, h⟩ := Outcome.bind_eq_ok_iff.1 h
      cases h
      exact fun hmem ↦ (List.mem_append.1 hmem).elim
        (Flat.not_mem_slash_of_reduce hps.1 hr) (ih hps.2 hu)

theorem pass_eq_of_not_mem_slash (hs : '/' ∉ s) : pass scale₁ s = pass scale₂ s :=
  replaceGroups_eq_of_not_mem_slash (by rwa [Group.pattern.flatMap_pieceText_pieces])

theorem not_mem_slash_of_pass (hs : '/' ∉ s) (h : (pass scale s).outcome = .ok t) : '/' ∉ t :=
  not_mem_slash_of_replaceGroups (by rwa [Group.pattern.flatMap_pieceText_pieces]) h

theorem resolveFrom_eq_of_not_mem_slash {s : Text} (number : Nat) (hs : '/' ∉ s) :
    resolveFrom scale₁ number s = resolveFrom scale₂ number s := by
  have hpass : pass scale₁ s = pass scale₂ s := pass_eq_of_not_mem_slash hs
  rw [resolveFrom_eq_bind, resolveFrom_eq_bind scale₂, ← hpass]
  refine Traced.bind_congr fun t ht ↦ ?_
  by_cases hts : t = s
  · rw [if_pos hts, if_pos hts]
  · rw [if_neg hts, if_neg hts,
      resolveFrom_eq_of_not_mem_slash (number + 1) (not_mem_slash_of_pass hs ht)]
termination_by s.count '('
decreasing_by exact count_pass_lt ht hts

theorem not_mem_slash_of_resolveFrom {s : Text} {number : Nat} (hs : '/' ∉ s)
    (h : (resolveFrom scale number s).outcome = .ok t) : '/' ∉ t := by
  rw [outcome_resolveFrom] at h
  obtain ⟨u, hu, h⟩ := Outcome.bind_eq_ok_iff.1 h
  by_cases hus : u = s
  · rw [if_pos hus] at h
    cases h
    exact hs
  · rw [if_neg hus] at h
    exact not_mem_slash_of_resolveFrom (not_mem_slash_of_pass hs hu) h
termination_by s.count '('
decreasing_by exact count_pass_lt hu hus

/-- Without a division sign in it, a text is reduced by the same steps at every scale. -/
theorem reduce_eq_of_not_mem_slash (hs : '/' ∉ s) : reduce scale₁ s = reduce scale₂ s := by
  have hresolve : resolve scale₁ s = resolve scale₂ s := resolveFrom_eq_of_not_mem_slash 1 hs
  rw [reduce, reduce, ← hresolve]
  exact Traced.bind_congr fun t ht ↦
    Flat.reduce_eq_of_not_mem_slash (not_mem_slash_of_resolveFrom hs ht)

end Nested

/-! ## Evaluations -/

/-- **Without a division the scale is of no account before the end.**  If an expression has no
division sign, it is reduced at any two scales by the same steps to the same text, or they end with
the same fault.  If that text is a literal, the value of the expression at any scale is that of the
literal, rounded at this scale; only if it then takes too many digits, there is none. -/
theorem reduce_same_at_all_scales (hs : '/' ∉ s) (scale₁ scale₂ : Int) :
    Nested.reduce scale₁ s = Nested.reduce scale₂ s ∧
      ∀ t l, (Nested.reduce scale₁ s).outcome = .ok t → Literal.ofText? t = some l →
        ∀ scale,
          (Decimal.IsTooLong scale l.value.toRat → (evaluate scale s).outcome = .error .overlong) ∧
          (¬ Decimal.IsTooLong scale l.value.toRat →
            (evaluate scale s).outcome = .ok (Answer.ofRat scale l.value.toRat)) := by
  refine ⟨Nested.reduce_eq_of_not_mem_slash hs, fun t l ht hl scale ↦ ?_⟩
  have hreduce : Nested.reduce scale s = Nested.reduce scale₁ s :=
    Nested.reduce_eq_of_not_mem_slash hs
  have hevaluate : (evaluate scale s).outcome = conclude scale t := by
    rw [outcome_evaluate, hreduce, ht]
    rfl
  rw [hevaluate]
  constructor
  · exact fun hlong ↦ conclude_eq_error_iff.2 (.inr ⟨l, hl, hlong, rfl⟩)
  · intro hshort
    rw [Decimal.isTooLong_iff, Bool.not_eq_true] at hshort
    exact conclude_eq_ok_iff.2 ⟨l, hl, hshort, rfl⟩

/-- `(0.5 - 2.45) * 0.5` is reduced to `-0.975` at all scales, which is a tie at scale `2` and
nearest to zero at scale `-1`. -/
theorem reduce_same_at_all_scales_tie :
    '/' ∉ "(0.5 - 2.45) * 0.5".toList ∧
      Nested.reduce 2 "(0.5 - 2.45) * 0.5".toList = Nested.reduce (-1) "(0.5 - 2.45) * 0.5".toList ∧
      (evaluate 2 "(0.5 - 2.45) * 0.5".toList).outcome = .ok ⟨⟨true, 98, -2⟩, true⟩ ∧
      (evaluate (-1) "(0.5 - 2.45) * 0.5".toList).outcome = .ok ⟨⟨false, 0, 1⟩, true⟩ := by
  have hs : '/' ∉ "(0.5 - 2.45) * 0.5".toList := by decide
  have hreduce : (Nested.reduce 2 "(0.5 - 2.45) * 0.5".toList).outcome = .ok "-0.975".toList :=
    Nested.outcome_reduce_of_within 9 (by decide +kernel)
  have hliteral : Literal.ofText? "-0.975".toList = some ⟨true, ['0'], ['9', '7', '5']⟩ := by decide
  obtain ⟨hsame, hvalue⟩ := reduce_same_at_all_scales hs 2 (-1)
  refine ⟨hs, hsame, ?_, ?_⟩
  · rw [(hvalue _ _ hreduce hliteral 2).2 (by rw [Decimal.isTooLong_iff]; decide +kernel)]
    decide +kernel
  · rw [(hvalue _ _ hreduce hliteral (-1)).2 (by rw [Decimal.isTooLong_iff]; decide +kernel)]
    decide +kernel

end Reckon
