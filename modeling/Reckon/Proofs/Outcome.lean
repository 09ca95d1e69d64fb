import Reckon.Expression.Evaluate

/-!
# Outcomes of computations done one after another

A reduction is a chain of computations in which the first fault is the outcome of the whole.  Here
the chains are taken apart again: into the two ways in which two computations after one another can
end, and into the parts of which the reduction of a flat expression, of one with groups and the
evaluation consist.  Journals are left out of account, except where it is said what a loop does: it
is its first round and, if that changed the text, the rest of it (`Flat.exhaust_eq_bind`,
`Nested.resolveFrom_eq_bind`).
-/

set_option autoImplicit false

namespace Reckon

namespace Outcome

variable {α β : Type}

/-- Two computations end well if the first does and then the second does. -/
theorem bind_eq_ok_iff {x : Except Fault α} {f : α → Except Fault β} {b : β} :
    x.bind f = .ok b ↔ ∃ a, x = .ok a ∧ f a = .ok b := by
  cases x with
  | ok a => simp [Except.bind]
  | error e => simp [Except.bind]

/-- Two computations end with a fault if the first does, or if the second does after it. -/
theorem bind_eq_error_iff {x : Except Fault α} {f : α → Except Fault β} {e : Fault} :
    x.bind f = .error e ↔ x = .error e ∨ ∃ a, x = .ok a ∧ f a = .error e := by
  cases x with
  | ok a => simp [Except.bind]
  | error e => simp [Except.bind]

theorem map_eq_ok_iff {x : Except Fault α} {f : α → β} {b : β} :
    x.map f = .ok b ↔ ∃ a, x = .ok a ∧ f a = b := by
  cases x with
  | ok a => simp [Except.map]
  | error e => simp [Except.map]

theorem map_eq_error_iff {x : Except Fault α} {f : α → β} {e : Fault} :
    x.map f = .error e ↔ x = .error e := by
  cases x with
  | ok a => simp [Except.map]
  | error e => simp [Except.map]

/-- A computation ends with a fault if it does not end well. -/
theorem exists_error_iff {x : Except Fault α} :
    (∃ e, x = .error e) ↔ ¬ ∃ a, x = .ok a := by
  cases x with
  | ok a => simp
  | error e => simp

end Outcome

@[simp] theorem Traced.outcome_noteFailure {α : Type} (s : Text) (x : Traced α) :
    (x.noteFailure s).outcome = x.outcome := by
  unfold Traced.noteFailure
  split
  · rfl
  · split <;> rfl

/-- Two computations are the same if they begin in the same way and go on in the same way from
whatever that comes to. -/
theorem Traced.bind_congr {α β : Type} {x : Traced α} {f g : α → Traced β}
    (h : ∀ a, x.outcome = .ok a → f a = g a) : x >>= f = x >>= g := by
  obtain ⟨journal, a | e⟩ := x
  · rfl
  · show andThen _ _ = andThen _ _
    simp only [andThen, h _ rfl]

variable (scale : Int) (s : Text)

theorem Flat.outcome_reduce :
    (Flat.reduce scale s).outcome =
      (Flat.check s).bind fun _ ↦ (Flat.exhaustAll scale Operator.all s).outcome := by
  rw [Flat.reduce, Traced.outcome_bind, Traced.outcome_ofExcept]

/-- An operator is worked off by a step and, if that changes the text, by working off what it
leaves. -/
theorem Flat.exhaust_eq_bind (op : Operator) :
    Flat.exhaust scale op s = Flat.step scale op s >>= fun t ↦
      if t = s then pure s else Flat.exhaust scale op t := by
  rw [Flat.exhaust]
  split
  · next h => rw [h]; rfl
  · next journal t h =>
    rw [h]
    show _ = Traced.andThen _ _
    split
    · next hts => simp [Traced.andThen, hts]
    · next hts => simp only [Traced.andThen, if_neg hts]

theorem Flat.outcome_exhaust (op : Operator) :
    (Flat.exhaust scale op s).outcome =
      (Flat.step scale op s).outcome.bind fun t ↦
        if t = s then .ok s else (Flat.exhaust scale op t).outcome := by
  rw [exhaust_eq_bind, Traced.outcome_bind]
  congr 1
  funext t
  split <;> rfl

theorem Flat.outcome_exhaustAll_cons (op : Operator) (ops : List Operator) :
    (Flat.exhaustAll scale (op :: ops) s).outcome =
      (Flat.exhaust scale op s).outcome.bind fun t ↦ (Flat.exhaustAll scale ops t).outcome := by
  rw [Flat.exhaustAll, Traced.outcome_bind]

/-- The passes are the first pass and, if that changes the text, the note that it did and the passes
that follow. -/
theorem Nested.resolveFrom_eq_bind (number : Nat) :
    Nested.resolveFrom scale number s = Nested.pass scale s >>= fun t ↦
      if t = s then pure s
      else Traced.record (.passed number s t) >>= fun _ ↦
        Nested.resolveFrom scale (number + 1) t := by
  rw [Nested.resolveFrom]
  split
  · next h => rw [h]; rfl
  · next journal t h =>
    rw [h]
    show _ = Traced.andThen _ _
    split
    · next hts => simp [Traced.andThen, hts]
    · next hts =>
      simp only [Traced.andThen, if_neg hts]
      rfl

theorem Nested.outcome_resolveFrom (number : Nat) :
    (Nested.resolveFrom scale number s).outcome =
      (Nested.pass scale s).outcome.bind fun t ↦
        if t = s then .ok s else (Nested.resolveFrom scale (number + 1) t).outcome := by
  rw [resolveFrom_eq_bind, Traced.outcome_bind]
  congr 1
  funext t
  split <;> rfl

theorem Nested.outcome_reduce :
    (Nested.reduce scale s).outcome =
      (Nested.resolve scale s).outcome.bind fun t ↦ (Flat.reduce scale t).outcome := by
  rw [Nested.reduce, Traced.outcome_bind]

/-- What has a value is a literal. -/
theorem exists_ofText?_of_conclude {scale : Int} {s : Text} {a : Answer}
    (h : conclude scale s = .ok a) : ∃ l, Literal.ofText? s = some l := by
  rw [conclude] at h
  split at h
  · cases h
  · next l hl => exact ⟨l, hl⟩

theorem outcome_evaluate :
    (evaluate scale s).outcome = (Nested.reduce scale s).outcome.bind (conclude scale) := by
  rw [evaluate, Traced.outcome_noteFailure, Traced.outcome_bind]
  rfl

end Reckon
