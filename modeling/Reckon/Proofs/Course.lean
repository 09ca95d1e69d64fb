import Reckon.Proofs.Step

/-!
# The course of a flat reduction

To work off some operators on a text is to do one step after another, each on what the step before
it has left.  `Visits` says which steps these are: a step of `op` is done on `t` in the course of
it.

Whatever is to be known about a whole course can be asked of its steps.  What every step keeps is
true of each text that is visited (`Visits.induction`); the events that are written down are those
of the steps (`mem_journal_exhaustAll_iff`); and a course ends with a fault exactly when one of its
steps does (`outcome_exhaustAll_eq_error_iff`).
-/

set_option autoImplicit false

namespace Reckon

variable {α β : Type} {scale : Int}

theorem Traced.mem_journal_bind {x : Traced α} {f : α → Traced β} {e : Event} :
    e ∈ (x >>= f).journal ↔
      e ∈ x.journal ∨ ∃ a, x.outcome = .ok a ∧ e ∈ (f a).journal := by
  cases h : x.outcome with
  | ok a => simp [journal_bind_of_ok h]
  | error fault => simp [journal_bind_of_error h]

namespace Flat

/-- When the operators are worked off on a text, a step of one of them is done on another. -/
inductive Visits (scale : Int) : List Operator → Text → Operator → Text → Prop where
  /-- The first operator begins with the text itself. -/
  | here {op : Operator} {ops : List Operator} {s : Text} : Visits scale (op :: ops) s op s
  /-- As long as the step of an operator changes the text, it is repeated. -/
  | again {op op' : Operator} {ops : List Operator} {s t u : Text}
      (hstep : (step scale op s).outcome = .ok t) (hne : t ≠ s)
      (h : Visits scale (op :: ops) t op' u) : Visits scale (op :: ops) s op' u
  /-- When it changes nothing more, it is the turn of the next operator. -/
  | next {op op' : Operator} {ops : List Operator} {s u : Text}
      (hstep : (step scale op s).outcome = .ok s) (h : Visits scale ops s op' u) :
      Visits scale (op :: ops) s op' u

variable {op op' : Operator} {ops : List Operator} {s t u : Text}

/-- What every step keeps is true of all texts that are visited. -/
theorem Visits.induction {motive : Text → Prop}
    (hstep : ∀ op s t, motive s → (step scale op s).outcome = .ok t → motive t)
    (h : Visits scale ops s op t) (hs : motive s) : motive t := by
  induction h with
  | here => exact hs
  | again hfirst _ _ ih => exact ih (hstep _ _ _ hs hfirst)
  | next _ _ ih => exact ih hs

/-- When the first operator is worked off, the course goes on with the others. -/
theorem Visits.of_exhaust {s : Text} (h : Visits scale ops t op' u)
    (ht : (exhaust scale op s).outcome = .ok t) : Visits scale (op :: ops) s op' u := by
  rw [outcome_exhaust] at ht
  obtain ⟨v, hv, ht⟩ := Outcome.bind_eq_ok_iff.1 ht
  by_cases hvs : v = s
  · rw [if_pos hvs] at ht
    cases ht
    exact .next (hvs ▸ hv) h
  · rw [if_neg hvs] at ht
    exact .again hv hvs (h.of_exhaust ht)
termination_by (weight s, s.length)
decreasing_by exact step_lt hv hvs

/-! ## Events -/

theorem exists_visits_of_mem_journal_exhaust {e : Event} {s : Text}
    (h : e ∈ (exhaust scale op s).journal) (ops : List Operator) :
    ∃ t, Visits scale (op :: ops) s op t ∧ e ∈ (step scale op t).journal := by
  by_cases hsame : (step scale op s).outcome = .ok s
  · rw [exhaust_of_same hsame] at h
    exact ⟨s, .here, h⟩
  · rw [exhaust_of_ne hsame, Traced.mem_journal_bind] at h
    rcases h with h | ⟨t, ht, h⟩
    · exact ⟨s, .here, h⟩
    · have hts : t ≠ s := fun heq ↦ hsame (heq ▸ ht)
      obtain ⟨u, hu, he⟩ := exists_visits_of_mem_journal_exhaust h ops
      exact ⟨u, .again ht hts hu, he⟩
termination_by (weight s, s.length)
decreasing_by exact step_lt ht hts

/-- The course begins with the first step, and what follows it is a course of what it leaves. -/
theorem mem_journal_exhaustAll_of_step {e : Event} (ht : (step scale op s).outcome = .ok t)
    (hts : t ≠ s) (h : e ∈ (exhaustAll scale (op :: ops) t).journal) :
    e ∈ (exhaustAll scale (op :: ops) s).journal := by
  have hne : (step scale op s).outcome ≠ .ok s := by
    rw [ht]
    simpa using hts
  rw [exhaustAll, Traced.mem_journal_bind] at h ⊢
  rw [exhaust_of_ne hne, Traced.mem_journal_bind, Traced.outcome_bind, ht]
  exact h.imp (fun he ↦ .inr ⟨t, rfl, he⟩) id

/-- The events of a course are those of its steps. -/
theorem mem_journal_exhaustAll_iff {e : Event} :
    e ∈ (exhaustAll scale ops s).journal ↔
      ∃ op t, Visits scale ops s op t ∧ e ∈ (step scale op t).journal := by
  constructor
  · intro h
    induction ops generalizing s with
    | nil => cases h
    | cons op ops ih =>
      rw [exhaustAll, Traced.mem_journal_bind] at h
      rcases h with h | ⟨t, ht, h⟩
      · obtain ⟨t, hvisit, he⟩ := exists_visits_of_mem_journal_exhaust h ops
        exact ⟨op, t, hvisit, he⟩
      · obtain ⟨op', u, hvisit, he⟩ := ih h
        exact ⟨op', u, hvisit.of_exhaust ht, he⟩
  · rintro ⟨op, t, hvisit, he⟩
    induction hvisit with
    | @here op ops s =>
      rw [exhaustAll, Traced.mem_journal_bind]
      by_cases hsame : (step scale op s).outcome = .ok s
      · exact .inl (by rwa [exhaust_of_same hsame])
      · exact .inl (by rw [exhaust_of_ne hsame, Traced.mem_journal_bind]; exact .inl he)
    | again ht hts _ ih => exact mem_journal_exhaustAll_of_step ht hts (ih he)
    | next hsame _ ih =>
      rw [exhaustAll, Traced.mem_journal_bind]
      exact .inr ⟨_, outcome_exhaust_of_same hsame, ih he⟩

theorem mem_journal_reduce_iff {e : Event} :
    e ∈ (reduce scale s).journal ↔
      check s = .ok () ∧
        ∃ op t, Visits scale Operator.all s op t ∧ e ∈ (step scale op t).journal := by
  rw [reduce, Traced.mem_journal_bind, Traced.journal_ofExcept, Traced.outcome_ofExcept,
    mem_journal_exhaustAll_iff]
  constructor
  · rintro (h | ⟨u, hcheck, h⟩)
    · cases h
    · exact ⟨hcheck, h⟩
  · rintro ⟨hcheck, h⟩
    exact .inr ⟨(), hcheck, h⟩

/-! ## Faults -/

theorem exists_visits_of_outcome_exhaust {e : Fault} {s : Text}
    (h : (exhaust scale op s).outcome = .error e) (ops : List Operator) :
    ∃ t, Visits scale (op :: ops) s op t ∧ (step scale op t).outcome = .error e := by
  rw [outcome_exhaust] at h
  rcases Outcome.bind_eq_error_iff.1 h with h | ⟨t, ht, h⟩
  · exact ⟨s, .here, h⟩
  · by_cases hts : t = s
    · rw [if_pos hts] at h
      cases h
    · rw [if_neg hts] at h
      obtain ⟨u, hu, he⟩ := exists_visits_of_outcome_exhaust h ops
      exact ⟨u, .again ht hts hu, he⟩
termination_by (weight s, s.length)
decreasing_by exact step_lt ht hts

/-- A course ends with a fault exactly when one of its steps does. -/
theorem outcome_exhaustAll_eq_error_iff {e : Fault} :
    (exhaustAll scale ops s).outcome = .error e ↔
      ∃ op t, Visits scale ops s op t ∧ (step scale op t).outcome = .error e := by
  constructor
  · intro h
    induction ops generalizing s with
    | nil => cases h
    | cons op ops ih =>
      rw [outcome_exhaustAll_cons] at h
      rcases Outcome.bind_eq_error_iff.1 h with h | ⟨t, ht, h⟩
      · obtain ⟨t, hvisit, he⟩ := exists_visits_of_outcome_exhaust h ops
        exact ⟨op, t, hvisit, he⟩
      · obtain ⟨op', u, hvisit, he⟩ := ih h
        exact ⟨op', u, hvisit.of_exhaust ht, he⟩
  · rintro ⟨op, t, hvisit, he⟩
    induction hvisit with
    | here => rw [outcome_exhaustAll_cons, outcome_exhaust_of_error he]; rfl
    | again ht _ _ ih =>
      rw [outcome_exhaustAll_cons, outcome_exhaust_of_step ht, ← outcome_exhaustAll_cons]
      exact ih he
    | next hsame _ ih =>
      rw [outcome_exhaustAll_cons, outcome_exhaust_of_same hsame]
      exact ih he

end Flat
end Reckon
