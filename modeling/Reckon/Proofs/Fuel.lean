import Reckon.Proofs.Parentheses.Pass

/-!
# Evaluation with a bound on its steps

The loops of an evaluation end because texts get lighter, and that argument does not compute.  Here
each loop is given a number of steps that it may take, so that the value of a closed expression can
be computed: `evaluateWithin` gives an answer only if the steps suffice, and then it is the answer
of `evaluate` (`outcome_evaluate_of_within`).  Faults are not told apart from a lack of steps.
-/

set_option autoImplicit false

namespace Reckon

/-- Repeats a rewriting of texts until it changes nothing, if that takes no more than so many
steps. -/
def settle (f : Text → Except Fault Text) : Nat → Text → Option Text
  | 0, _ => none
  | fuel + 1, s =>
    match f s with
    | .error _ => none
    | .ok t => if t = s then some s else settle f fuel t

namespace Flat

/-- Works off one operator after the other, in no more than so many steps each. -/
def exhaustAllWithin (fuel : Nat) (scale : Int) : List Operator → Text → Option Text
  | [], s => some s
  | op :: ops, s =>
    (settle (fun t ↦ (step scale op t).outcome) fuel s).bind (exhaustAllWithin fuel scale ops)

/-- Reduces a flat expression, in no more than so many steps for each operator. -/
def reduceWithin (fuel : Nat) (scale : Int) (s : Text) : Option Text :=
  match check s with
  | .error _ => none
  | .ok _ => exhaustAllWithin fuel scale Operator.all s

variable {fuel : Nat} {scale : Int}

theorem outcome_exhaust_of_settle {op : Operator} {s t : Text}
    (h : settle (fun t ↦ (step scale op t).outcome) fuel s = some t) :
    (exhaust scale op s).outcome = .ok t := by
  induction fuel generalizing s with
  | zero => cases h
  | succ fuel ih =>
    rw [settle] at h
    rw [outcome_exhaust]
    split at h
    · cases h
    · next u hu =>
      rw [hu, Except.bind]
      split at h
      · next hsame => cases h; rw [if_pos hsame]
      · next hne => rw [if_neg hne, ih h]

theorem outcome_exhaustAll_of_within {ops : List Operator} {s t : Text}
    (h : exhaustAllWithin fuel scale ops s = some t) :
    (exhaustAll scale ops s).outcome = .ok t := by
  induction ops generalizing s with
  | nil => cases h; rfl
  | cons op ops ih =>
    obtain ⟨u, hu, h⟩ := Option.bind_eq_some_iff.1 h
    rw [outcome_exhaustAll_cons, outcome_exhaust_of_settle hu]
    exact ih h

theorem outcome_reduce_of_within {s t : Text} (h : reduceWithin fuel scale s = some t) :
    (reduce scale s).outcome = .ok t := by
  rw [reduceWithin] at h
  rw [outcome_reduce]
  split at h
  · cases h
  · next hcheck => rw [hcheck]; exact outcome_exhaustAll_of_within h

end Flat

namespace Nested

/-- Replaces the groups of a forest, with a bound on the steps of each reduction. -/
def Forest.flattenWithin (fuel : Nat) (scale : Int) : Forest → Option Text
  | .nil => some []
  | .char c rest => (rest.flattenWithin fuel scale).map (c :: ·)
  | .group inner rest =>
    ((inner.flattenWithin fuel scale).bind fun s ↦
      Flat.reduceWithin fuel scale ('(' :: (s ++ [')']))).bind fun t ↦
        (rest.flattenWithin fuel scale).map (t ++ ·)

theorem Forest.flatten_of_within (fuel : Nat) {scale : Int} {f : Forest} {t : Text}
    (h : f.flattenWithin fuel scale = some t) : f.flatten scale = .ok t := by
  induction f generalizing t with
  | nil => cases h; rfl
  | char c rest ih =>
    obtain ⟨u, hu, rfl⟩ := Option.map_eq_some_iff.1 h
    rw [flatten, ih hu]
    rfl
  | group inner rest ihinner ihrest =>
    obtain ⟨r, hr, h⟩ := Option.bind_eq_some_iff.1 h
    obtain ⟨s, hs, hr⟩ := Option.bind_eq_some_iff.1 hr
    obtain ⟨u, hu, rfl⟩ := Option.map_eq_some_iff.1 h
    have hgroup : enclosed scale s = .ok r := Flat.outcome_reduce_of_within hr
    rw [flatten, ihinner hs, ihrest hu, Except.bind, hgroup]
    rfl

/-- What an expression is reduced to within the bound is what it is reduced to. -/
theorem outcome_reduce_of_within (fuel : Nat) {scale : Int} {s t : Text}
    (h : ((Forest.ofText s).flattenWithin fuel scale).bind (Flat.reduceWithin fuel scale) =
      some t) : (reduce scale s).outcome = .ok t := by
  obtain ⟨u, hu, ht⟩ := Option.bind_eq_some_iff.1 h
  rw [outcome_reduce, outcome_resolve_eq_ok_iff.2 (Forest.flatten_of_within fuel hu), Except.bind]
  exact Flat.outcome_reduce_of_within ht

end Nested

/-- Evaluates an expression, with a bound on the steps of each reduction. -/
def evaluateWithin (fuel : Nat) (scale : Int) (s : Text) : Option Answer :=
  (((Nested.Forest.ofText s).flattenWithin fuel scale).bind (Flat.reduceWithin fuel scale)).bind
    fun t ↦ (conclude scale t).toOption

/-- What is found within the bound is the answer. -/
theorem outcome_evaluate_of_within (fuel : Nat) {scale : Int} {s : Text} {a : Answer}
    (h : evaluateWithin fuel scale s = some a) : (evaluate scale s).outcome = .ok a := by
  obtain ⟨t, ht, ha⟩ := Option.bind_eq_some_iff.1 h
  rw [outcome_evaluate, Nested.outcome_reduce_of_within fuel ht, Except.bind]
  cases hc : conclude scale t with
  | error e => rw [hc] at ha; cases ha
  | ok b => rw [hc] at ha; cases ha; rfl

example : evaluateWithin 9 2 "(4 + (2 * 8)) / 3".toList = some ⟨⟨false, 667, -2⟩, true⟩ := by
  decide +kernel

end Reckon
