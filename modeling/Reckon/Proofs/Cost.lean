import Reckon.Proofs.Journal

/-!
# What a flat reduction costs

A step that changes a text either replaces a pair, and the weight of the text goes down, or only
frees the text, and then there are fewer spaces and parentheses in it.  So the journal of a
reduction is paid for by the text that it begins with: each event that is counted takes something
from what the text is worth, or is the last step of its operator (`Spends`, `spends_reduce`).

Counted are the pairs that are replaced, which the weight alone pays for, and the steps, for which
the spaces and parentheses pay too (`reduce_stops_exactly`).
-/

set_option autoImplicit false

namespace Reckon

/-- Whether a pair of literals was replaced. -/
def Event.isCollapsed : Event → Bool
  | .collapsed _ _ => true
  | .unwrapped _ | .grouped _ _ | .passed _ _ _ | .failed _ _ => false

/-- Whether a text was freed, which is what every step ends with. -/
def Event.isUnwrapped : Event → Bool
  | .unwrapped _ => true
  | .collapsed _ _ | .grouped _ _ | .passed _ _ _ | .failed _ _ => false

namespace Flat

variable {scale : Int} {op : Operator}

/-! ## Where a step changes nothing -/

/-- A step changes nothing exactly where there is no pair to replace and nothing to free. -/
theorem eq_of_step_iff {s t : Text} (h : (step scale op s).outcome = .ok t) :
    t = s ↔ (operation op).search s = none ∧ unwrap s = s := by
  rcases eq_unwrap_of_step h with ⟨hsearch, rfl⟩ | ⟨o, d, ho, hd, rfl⟩
  · simp [hsearch]
  · have hlt := weight_replace_lt ho hd
    rw [← weight_unwrap] at hlt
    refine iff_of_false (fun heq ↦ ?_) (by simp [ho])
    rw [heq] at hlt
    exact Nat.lt_irrefl _ hlt

/-- When an operator is worked off, a step of it changes nothing more. -/
theorem step_of_exhaust {s t : Text} (h : (exhaust scale op s).outcome = .ok t) :
    (step scale op t).outcome = .ok t := by
  rw [outcome_exhaust] at h
  obtain ⟨u, hu, h⟩ := Outcome.bind_eq_ok_iff.1 h
  by_cases hus : u = s
  · rw [if_pos hus] at h
    cases h
    rwa [hus] at hu
  · rw [if_neg hus] at h
    exact step_of_exhaust h
termination_by (weight s, s.length)
decreasing_by exact step_lt hu hus

/-! ## Events and what pays for them -/

/-- The events that are counted and what the outcome is worth come to no more than `n`.  A fault is
worth nothing. -/
def Spends (counted : Event → Bool) (worth : Text → Nat) (x : Traced Text) (n : Nat) : Prop :=
  x.journal.countP counted + (match x.outcome with
    | .ok t => worth t
    | .error _ => 0) ≤ n

variable {counted : Event → Bool} {worth : Text → Nat}

theorem Spends.bind {x : Traced Text} {f : Text → Traced Text} {n toll : Nat}
    (hx : Spends counted worth x n)
    (hf : ∀ t, x.outcome = .ok t → Spends counted worth (f t) (worth t + toll)) :
    Spends counted worth (x >>= f) (n + toll) := by
  rw [Spends] at hx ⊢
  cases h : x.outcome with
  | error e =>
    rw [h] at hx
    rw [Traced.journal_bind_of_error h, Traced.outcome_bind, h]
    exact Nat.le_add_right_of_le hx
  | ok t =>
    have ht := hf t h
    rw [Spends] at ht
    rw [h] at hx
    rw [Traced.journal_bind_of_ok h, Traced.outcome_bind, h, List.countP_append]
    dsimp only [Except.bind] at hx ⊢
    omega

section Budget

variable {toll : Nat}
  (hlast : ∀ op s, (step scale op s).outcome = .ok s →
    Spends counted worth (step scale op s) (worth s + toll))
  (hstep : ∀ op s, (step scale op s).outcome ≠ .ok s →
    Spends counted worth (step scale op s) (worth s))

include hlast hstep

/-- If all steps but the last of an operator are paid for by what they take from a text, working the
operator off costs the toll once. -/
theorem spends_exhaust (op : Operator) (s : Text) :
    Spends counted worth (exhaust scale op s) (worth s + toll) := by
  by_cases hsame : (step scale op s).outcome = .ok s
  · rw [exhaust_of_same hsame]
    exact hlast op s hsame
  · rw [exhaust_of_ne hsame]
    refine (hstep op s hsame).bind fun t ht ↦ ?_
    have hts : t ≠ s := fun h ↦ hsame (h ▸ ht)
    exact spends_exhaust op t
termination_by (weight s, s.length)
decreasing_by exact step_lt ht hts

theorem spends_exhaustAll (ops : List Operator) (s : Text) :
    Spends counted worth (exhaustAll scale ops s) (worth s + toll * ops.length) := by
  induction ops generalizing s with
  | nil => exact Nat.le_of_eq (Nat.zero_add _)
  | cons op ops ih =>
    rw [List.length_cons, Nat.mul_succ, Nat.add_comm (toll * ops.length), ← Nat.add_assoc]
    exact (spends_exhaust hlast hstep op s).bind fun t _ ↦ ih t

/-- What a reduction writes down is paid for by the text, and by the toll once for each operator. -/
theorem spends_reduce (s : Text) :
    Spends counted worth (reduce scale s) (worth s + toll * Operator.all.length) := by
  rw [reduce]
  cases hcheck : check s with
  | error e => exact Nat.zero_le _
  | ok u => exact spends_exhaustAll hlast hstep Operator.all s

end Budget

/-! ## Pairs -/

/-- The weight of a text pays for the pairs that a step replaces. -/
theorem spends_weight_step (scale : Int) (op : Operator) (s : Text) :
    Spends Event.isCollapsed weight (step scale op s) (weight s) := by
  rw [Spends]
  rcases step_cases scale op s with ⟨-, hstep⟩ | ⟨e, hstep⟩ | ⟨o, d, ho, hd, hstep⟩
  · rw [hstep]
    exact Nat.le_of_eq ((Nat.zero_add _).trans (weight_unwrap s))
  · rw [hstep]
    exact Nat.zero_le _
  · have hlt := weight_replace_lt ho hd
    rw [hstep]
    simp only [List.countP_cons, List.countP_nil, Event.isCollapsed, weight_unwrap]
    simp only [if_true, Bool.false_eq_true, if_false]
    omega

/-! ## Steps -/

/-- The number of spaces and parentheses of a text. -/
def edges (s : Text) : Nat := s.countP isEdge

/-- Freeing a text costs it just the spaces and parentheses that it takes away. -/
theorem edges_unwrap (s : Text) : edges (unwrap s) + s.length = edges s + (unwrap s).length := by
  obtain ⟨x, y, hs, hx, hy⟩ := exists_edges_of_unwrap s
  have hedges := congrArg edges hs
  have hlength := congrArg List.length hs
  simp only [edges, List.countP_append, List.countP_eq_length.2 hx,
    List.countP_eq_length.2 hy] at hedges ⊢
  simp only [List.length_append] at hlength
  omega

theorem edges_unwrap_lt {s : Text} (h : unwrap s ≠ s) : edges (unwrap s) < edges s := by
  have := edges_unwrap s
  have := length_unwrap_lt h
  omega

theorem edges_unwrap_le (s : Text) : edges (unwrap s) ≤ edges s := by
  by_cases h : unwrap s = s
  · exact Nat.le_of_eq (congrArg edges h)
  · exact Nat.le_of_lt (edges_unwrap_lt h)

/-- A result has no spaces and no parentheses. -/
theorem edges_replace_le {s : Text} {o : Occurrence Pair} (d : Decimal)
    (h : (operation op).search s = some o) :
    edges (o.before ++ (d.plain ++ o.after)) ≤ edges s := by
  have hplain : d.plain.countP isEdge = 0 :=
    List.countP_eq_zero.2 fun c hc ↦ by simp [isEdge_of_mem_text d.isProper_toLiteral hc]
  have hs := congrArg edges ((operation op).append_of_search h)
  simp only [edges, List.countP_append] at hs ⊢
  omega

/-- What pays for the steps of a reduction. -/
def substance (s : Text) : Nat := weight s + edges s

/-- A step that changes a text takes something from it. -/
theorem substance_lt_of_step {s t : Text} (h : (step scale op s).outcome = .ok t) (hne : t ≠ s) :
    substance t < substance s := by
  rw [substance, substance]
  rcases eq_unwrap_of_step h with ⟨-, rfl⟩ | ⟨o, d, ho, hd, rfl⟩
  · have := edges_unwrap_lt hne
    rw [weight_unwrap]
    omega
  · have := weight_replace_lt ho hd
    have := edges_replace_le d ho
    have := edges_unwrap_le (o.before ++ (d.plain ++ o.after))
    rw [weight_unwrap]
    omega

theorem countP_isUnwrapped_step_le (scale : Int) (op : Operator) (s : Text) :
    (step scale op s).journal.countP Event.isUnwrapped ≤ 1 := by
  rcases step_cases scale op s with ⟨-, hstep⟩ | ⟨e, hstep⟩ | ⟨o, d, -, -, hstep⟩
  · rw [hstep]
    exact Nat.le_refl _
  · rw [hstep]
    exact Nat.zero_le _
  · rw [hstep]
    exact Nat.le_refl _

theorem spends_substance_of_same {s : Text} (h : (step scale op s).outcome = .ok s) :
    Spends Event.isUnwrapped substance (step scale op s) (substance s + 1) := by
  have := countP_isUnwrapped_step_le scale op s
  rw [Spends]
  rw [h]
  dsimp only
  omega

theorem spends_substance_of_ne {s : Text} (h : (step scale op s).outcome ≠ .ok s) :
    Spends Event.isUnwrapped substance (step scale op s) (substance s) := by
  rw [Spends]
  cases hstep : (step scale op s).outcome with
  | ok t =>
    have := countP_isUnwrapped_step_le scale op s
    have := substance_lt_of_step hstep fun heq ↦ h (heq ▸ hstep)
    dsimp only
    omega
  | error e =>
    rcases step_cases scale op s with ⟨-, heq⟩ | ⟨e, heq⟩ | ⟨o, d, -, -, heq⟩
    · rw [heq] at hstep
      cases hstep
    · rw [heq]
      exact Nat.zero_le _
    · rw [heq] at hstep
      cases hstep

/-! ## Reductions -/

/-- **A flat reduction ends on every text, and no operator is left while there is work for it.**  A
step changes nothing exactly where its operator finds no pair and there is nothing to free, and that
is so when the operator has been worked off.  A reduction replaces no more pairs than the text has
division signs and runs of digits; and besides the five steps that find their operators worked off,
it does no more steps than the text has division signs, runs of digits, spaces and parentheses. -/
theorem reduce_stops_exactly (scale : Int) :
    (∀ op s t, (step scale op s).outcome = .ok t →
      (t = s ↔ (operation op).search s = none ∧ unwrap s = s)) ∧
    (∀ op s t, (exhaust scale op s).outcome = .ok t →
      (operation op).search t = none ∧ unwrap t = t) ∧
    ∀ s, (reduce scale s).journal.countP Event.isCollapsed ≤ s.count '/' + s.digitRuns ∧
      (reduce scale s).journal.countP Event.isUnwrapped ≤
        s.count '/' + s.digitRuns + s.countP isEdge + Operator.all.length := by
  refine ⟨fun op s t ↦ eq_of_step_iff, fun op s t h ↦ ?_, fun s ↦ ⟨?_, ?_⟩⟩
  · exact (eq_of_step_iff (step_of_exhaust h)).1 rfl
  · have h : Spends Event.isCollapsed weight (reduce scale s) (weight s + 0 * _) :=
      spends_reduce (fun op s _ ↦ spends_weight_step scale op s)
        (fun op s _ ↦ spends_weight_step scale op s) s
    rw [Nat.zero_mul] at h
    exact Nat.le_of_add_right_le h
  · have h : Spends Event.isUnwrapped substance (reduce scale s) (substance s + 1 * _) :=
      spends_reduce (fun op s ↦ spends_substance_of_same) (fun op s ↦ spends_substance_of_ne) s
    rw [Nat.one_mul] at h
    exact Nat.le_of_add_right_le h

end Flat
end Reckon
