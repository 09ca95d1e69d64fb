import Reckon.Expression.Group
import Reckon.Proofs.Outcome
import Reckon.Proofs.Row.Scan

/-!
# One operation on a text

An operation replaces the leftmost pair of its operator.  Where there is none in the first part of a
text, the operation works behind that part (`collapse_append`), and where a literal is followed by
the operator and another literal, it works on the two (`collapse_text`).  All that a step can do is
said once (`step_cases`), and what it can lead to (`eq_unwrap_of_step`).  To work an operator off, a
step can always be done first (`outcome_exhaust_of_step`), and what every step keeps is kept by a
whole reduction (`reduce_induction`).
-/

set_option autoImplicit false

namespace Reckon
namespace Flat

variable {scale : Int} {op : Operator}

/-! ## The leftmost pair -/

theorem outcome_collapse_of_search {s : Text} {o : Occurrence Pair}
    (h : (operation op).search s = some o) :
    (collapse scale op s).outcome =
      (op.apply scale o.found.left.value o.found.right.value).map fun d ↦
        o.before ++ (d.plain ++ o.after) := by
  rw [collapse, h]
  dsimp only
  rw [Traced.outcome_bind, Traced.outcome_ofExcept]
  cases op.apply scale o.found.left.value o.found.right.value <;> rfl

theorem outcome_collapse_of_none {s : Text} (h : (operation op).search s = none) :
    (collapse scale op s).outcome = .ok s := by
  rw [collapse, h]
  rfl

/-- An operation works behind a part of a text where it finds nothing. -/
theorem collapse_append {s t : Text} (h : (operation op).Silent s t) :
    (collapse scale op (s ++ t)).outcome = (collapse scale op t).outcome.map (s ++ ·) := by
  have hsearch := (operation op).search_append h
  cases ho : (operation op).search t with
  | none =>
    rw [ho] at hsearch
    rw [outcome_collapse_of_none ho, outcome_collapse_of_none hsearch]
    rfl
  | some o =>
    rw [ho] at hsearch
    rw [outcome_collapse_of_search ho, outcome_collapse_of_search hsearch]
    cases op.apply scale o.found.left.value o.found.right.value <;> simp [Except.map]

/-- An operation works on a literal that its operator and another literal follow. -/
theorem collapse_text {l right : Literal} (hl : l.IsProper) {s gap rest : Text}
    (hs : Literal.Closes s)
    (h : (Separator.operator op).followed? s = some (gap, right, rest)) :
    (collapse scale op (l.text ++ s)).outcome =
      (op.apply scale l.value right.value).map fun d ↦ d.plain ++ rest := by
  rw [outcome_collapse_of_search (Pair.search_text hl hs h)]
  rfl

/-- All that a literal is made of has a place in arithmetic. -/
theorem isForeign_of_mem_text {l : Literal} (hl : l.IsProper) {c : Char} (hc : c ∈ l.text) :
    Separator.isForeign c = false := by
  rcases hl.mem_text hc with h | rfl | rfl
  · simp [Separator.isForeign, h]
  · rfl
  · rfl

/-- Replacing a pair keeps the characters that are neither blanks nor have a place in arithmetic. -/
theorem filter_replace {p : Char → Bool}
    (hp : ∀ c, p c = true → Separator.isForeign c = true ∧ Text.isBlank c = false) {s : Text}
    {o : Occurrence Pair} (d : Decimal) (h : (operation op).search s = some o) :
    (o.before ++ (d.plain ++ o.after)).filter p = s.filter p := by
  have hliteral : ∀ l : Literal, l.IsProper → l.text.filter p = [] := by
    intro l hl
    refine List.filter_eq_nil_iff.2 fun c hc hpc ↦ ?_
    exact Bool.eq_false_iff.1 (isForeign_of_mem_text hl hc) (hp c hpc).1
  obtain ⟨hleft, hright, ⟨t, rest, hgap⟩, hs⟩ := exists_of_search_operation h
  have hgapnil : o.found.gap.filter p = [] := by
    refine List.filter_eq_nil_iff.2 fun c hc hpc ↦ ?_
    obtain ⟨hforeign, hblank⟩ := hp c hpc
    rcases Separator.mem_gap_operator hgap hc with hb | rfl
    · rw [hb] at hblank
      cases hblank
    · cases op <;> cases hforeign
  rw [← hs]
  simp only [Pair.text, Decimal.plain, List.filter_append, hliteral _ hleft, hliteral _ hright,
    hliteral _ d.isProper_toLiteral, hgapnil, List.nil_append]

/-! ## Freeing a text -/

/-- Whether a character is one of those that freeing a text can take away. -/
def isEdge (c : Char) : Bool := Text.isSpace c || Group.isParen c

/-- Freeing a text takes away nothing but spaces and parentheses at its ends. -/
theorem exists_edges_of_unwrap (s : Text) :
    ∃ x y, s = x ++ (unwrap s ++ y) ∧ (∀ c ∈ x, isEdge c = true) ∧ ∀ c ∈ y, isEdge c = true := by
  obtain ⟨x, y, hs, hxy⟩ := exists_append_unwrap s
  have key : ∀ c, c ∈ x ∨ c ∈ y → isEdge c = true := by
    intro c hc
    rcases hxy c hc with h | rfl | rfl
    · simp [isEdge, h]
    · rfl
    · rfl
  exact ⟨x, y, hs, fun c hc ↦ key c (.inl hc), fun c hc ↦ key c (.inr hc)⟩

/-- Freeing a text keeps all other characters. -/
theorem filter_unwrap {p : Char → Bool} (hp : ∀ c, p c = true → isEdge c = false) (s : Text) :
    (unwrap s).filter p = s.filter p := by
  have hedges : ∀ t : Text, (∀ c ∈ t, isEdge c = true) → t.filter p = [] := by
    intro t ht
    refine List.filter_eq_nil_iff.2 fun c hc hpc ↦ ?_
    have := hp c hpc
    rw [ht c hc] at this
    cases this
  obtain ⟨x, y, hs, hx, hy⟩ := exists_edges_of_unwrap s
  conv => rhs; rw [hs]
  rw [List.filter_append, List.filter_append, hedges x hx, hedges y hy, List.nil_append,
    List.append_nil]

theorem isSpace_of_isDigit {c : Char} (h : c.isDigit = true) : Text.isSpace c = false := by
  cases hs : Text.isSpace c with
  | false => rfl
  | true =>
    rw [(isDigit_of_isSpace hs).1] at h
    cases h

theorem isParen_of_isSpace {c : Char} (h : Text.isSpace c = true) : Group.isParen c = false := by
  cases hp : Group.isParen c with
  | false => rfl
  | true =>
    simp only [Group.isParen, Bool.or_eq_true, decide_eq_true_eq] at hp
    rcases hp with rfl | rfl
    · exact absurd h (by decide)
    · exact absurd h (by decide)

theorem isEdge_of_isDigit {c : Char} (h : c.isDigit = true) : isEdge c = false := by
  have hparen : Group.isParen c = false := by
    simp only [Group.isParen, Bool.or_eq_false_iff, decide_eq_false_iff_not]
    constructor
    · rintro rfl
      cases h
    · rintro rfl
      cases h
  rw [isEdge, isSpace_of_isDigit h, hparen]
  rfl

/-- Nothing of a literal can be taken away. -/
theorem isEdge_of_mem_text {l : Literal} (hl : l.IsProper) {c : Char} (hc : c ∈ l.text) :
    isEdge c = false := by
  rcases hl.mem_text hc with h | rfl | rfl
  · exact isEdge_of_isDigit h
  · rfl
  · rfl

/-! ## Steps -/

/-- All that a step can do: free a text in which there is no pair, come to the fault of an operator,
or replace the leftmost pair and free what comes of it. -/
theorem step_cases (scale : Int) (op : Operator) (s : Text) :
    ((operation op).search s = none ∧ step scale op s = ⟨[.unwrapped s], .ok (unwrap s)⟩) ∨
      (∃ e, step scale op s = ⟨[], .error e⟩) ∨
      ∃ o d, (operation op).search s = some o ∧
        op.apply scale o.found.left.value o.found.right.value = .ok d ∧
        step scale op s =
          ⟨[.collapsed o.found.text d.plain, .unwrapped (o.before ++ (d.plain ++ o.after))],
            .ok (unwrap (o.before ++ (d.plain ++ o.after)))⟩ := by
  rw [step, collapse]
  cases ho : (operation op).search s with
  | none => exact .inl ⟨rfl, rfl⟩
  | some o =>
    cases hd : op.apply scale o.found.left.value o.found.right.value with
    | error e => exact .inr (.inl ⟨e, by dsimp only; rw [hd]; rfl⟩)
    | ok d => exact .inr (.inr ⟨o, d, rfl, hd, by dsimp only; rw [hd]; rfl⟩)

/-- What is left when a step ends well. -/
theorem eq_unwrap_of_step {s t : Text} (h : (step scale op s).outcome = .ok t) :
    ((operation op).search s = none ∧ t = unwrap s) ∨
      ∃ o d, (operation op).search s = some o ∧
        op.apply scale o.found.left.value o.found.right.value = .ok d ∧
        t = unwrap (o.before ++ (d.plain ++ o.after)) := by
  rcases step_cases scale op s with ⟨hsearch, hstep⟩ | ⟨e, hstep⟩ | ⟨o, d, ho, hd, hstep⟩
  · rw [hstep] at h
    exact .inl ⟨hsearch, (Except.ok.inj h).symm⟩
  · rw [hstep] at h
    cases h
  · rw [hstep] at h
    exact .inr ⟨o, d, ho, hd, (Except.ok.inj h).symm⟩

theorem outcome_step (s : Text) :
    (step scale op s).outcome = (collapse scale op s).outcome.map unwrap := by
  rw [step, Traced.outcome_bind]
  cases (collapse scale op s).outcome <;> rfl

/-- What an operator is worked off to stays the same when a step is done first. -/
theorem outcome_exhaust_of_step {s t : Text} (h : (step scale op s).outcome = .ok t) :
    (exhaust scale op s).outcome = (exhaust scale op t).outcome := by
  by_cases hts : t = s
  · rw [hts]
  · rw [outcome_exhaust, h, Except.bind, if_neg hts]

/-- A fault of a step is the fault of working the operator off. -/
theorem outcome_exhaust_of_error {s : Text} {e : Fault}
    (h : (step scale op s).outcome = .error e) : (exhaust scale op s).outcome = .error e := by
  rw [outcome_exhaust, h, Except.bind]

/-- Where a step changes nothing, it is all there is to working the operator off. -/
theorem exhaust_of_same {s : Text} (h : (step scale op s).outcome = .ok s) :
    exhaust scale op s = step scale op s := by
  rw [exhaust]
  split
  · next hstep => rw [hstep] at h; cases h
  · next t hstep =>
    rw [hstep] at h
    cases h
    rw [dif_pos rfl, hstep]

/-- Otherwise the operator is worked off by a step and by working off what the step leaves. -/
theorem exhaust_of_ne {s : Text} (h : (step scale op s).outcome ≠ .ok s) :
    exhaust scale op s = step scale op s >>= exhaust scale op := by
  rw [exhaust_eq_bind]
  refine Traced.bind_congr fun t ht ↦ if_neg ?_
  rintro rfl
  exact h ht

/-- Where a step changes nothing, the operator is worked off. -/
theorem outcome_exhaust_of_same {s : Text} (h : (step scale op s).outcome = .ok s) :
    (exhaust scale op s).outcome = .ok s := by
  rw [outcome_exhaust, h, Except.bind, if_pos rfl]

/-! ## Whole reductions -/

section Induction

variable {motive : Text → Prop}
  (hstep : ∀ op s t, motive s → (step scale op s).outcome = .ok t → motive t)

include hstep

/-- What every step keeps is kept when an operator is worked off. -/
theorem exhaust_induction {s t : Text} (h : (exhaust scale op s).outcome = .ok t)
    (hs : motive s) : motive t := by
  rw [outcome_exhaust] at h
  obtain ⟨u, hu, h⟩ := Outcome.bind_eq_ok_iff.1 h
  by_cases hus : u = s
  · rw [if_pos hus] at h
    cases h
    exact hs
  · rw [if_neg hus] at h
    exact exhaust_induction h (hstep op s u hs hu)
termination_by (weight s, s.length)
decreasing_by exact step_lt hu hus

theorem exhaustAll_induction {ops : List Operator} {s t : Text}
    (h : (exhaustAll scale ops s).outcome = .ok t) (hs : motive s) : motive t := by
  induction ops generalizing s with
  | nil =>
    cases h
    exact hs
  | cons op ops ih =>
    rw [outcome_exhaustAll_cons] at h
    obtain ⟨u, hu, h⟩ := Outcome.bind_eq_ok_iff.1 h
    exact ih h (exhaust_induction hstep hu hs)

/-- What every step keeps is kept by a whole reduction. -/
theorem reduce_induction {s t : Text} (h : (reduce scale s).outcome = .ok t) (hs : motive s) :
    motive t := by
  rw [outcome_reduce] at h
  obtain ⟨-, -, h⟩ := Outcome.bind_eq_ok_iff.1 h
  exact exhaustAll_induction hstep h hs

end Induction

end Flat
end Reckon
