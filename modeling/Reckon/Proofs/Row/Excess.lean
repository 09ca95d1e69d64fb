import Reckon.Proofs.Decimal.Exact
import Reckon.Proofs.Row.Reduce

/-!
# Points that are too many

A literal with places has two runs of digits and one point, and one without has one run and no
point.  So the `excess` of a text, its runs of digits less twice its points, is never negative if
the text is a literal, or a row of literals.  Where a result runs together with the digits in front
of it, the excess gets negative.

As long as quotients have places, no operation makes the excess any greater (`excess_collapse_le`).
So a text in which two literals with places have run together is never reduced to a number
(`conclude_ne_ok_of_excess`).
-/

set_option autoImplicit false

namespace Reckon

/-! ## The excess of a text -/

/-- The runs of digits of a text, less twice its points. -/
def Text.excess (s : Text) : Int := s.digitRuns - 2 * s.count '.'

namespace Literal

variable {l : Literal}

theorem IsProper.count_point_text (h : l.IsProper) :
    l.text.count '.' = if l.places = [] then 0 else 1 := by
  have hdigits : ∀ s : Text, (∀ c ∈ s, c.isDigit = true) → s.count '.' = 0 := by
    refine fun s hs ↦ List.count_eq_zero.2 fun hmem ↦ ?_
    exact absurd (hs _ hmem) (by decide)
  have hsign : (signText l.negative).count '.' = 0 := by
    cases l.negative <;> rfl
  rw [text, List.count_append, List.count_append, hsign, hdigits _ h.isDigit_whole]
  cases hp : l.places with
  | nil => rfl
  | cons c s =>
    have hcount : (c :: s).count '.' = 0 := hdigits _ (hp ▸ h.isDigit_places)
    rw [placesText, List.count_cons, hcount]
    · simp
    · simp

/-- A literal with places adds nothing to the excess of a text, and a digit behind it takes one
off. -/
theorem IsProper.excess_text_append (h : l.IsProper) (hplaces : l.places ≠ []) (s : Text) :
    (l.text ++ s).excess = s.excess - if Text.digitNext false s then 1 else 0 := by
  rw [Text.excess, Text.excess, Text.digitRuns, Text.digitRuns, Text.runsBefore_append,
    List.count_append, h.count_point_text, if_neg hplaces, h.runsBefore_text, if_neg hplaces]
  split <;> omega

/-- The excess of a literal is not negative. -/
theorem IsProper.excess_text_nonneg (h : l.IsProper) : 0 ≤ l.text.excess := by
  rw [Text.excess, Text.digitRuns, h.runsBefore_text, h.count_point_text]
  split <;> simp

end Literal

/-! ## Operations -/

/-- A result has places if both operands do and quotients have some. -/
theorem Operator.exponent_apply_lt {scale : Int} (hscale : -4 < scale) {op : Operator}
    {a b d : Decimal} (ha : a.exponent < 0) (hb : b.exponent < 0)
    (h : op.apply scale a b = .ok d) : d.exponent < 0 := by
  cases op with
  | divide =>
    rw [apply] at h
    rw [eq_of_quotient h]
    simp only [Decimal.ofUnits, guardPlaces]
    omega
  | times =>
    cases h
    simp only [Decimal.mul]
    omega
  | plus =>
    cases h
    simp only [Decimal.add]
    omega
  | minus =>
    cases h
    simp only [Decimal.sub, Decimal.add, Decimal.neg]
    omega
  | remainder =>
    rw [apply] at h
    split at h
    · cases h
    · cases h
      simp only [Decimal.rem]
      omega

namespace Flat

variable {scale : Int}

theorem places_apply_ne_nil (hscale : -4 < scale) {op : Operator} {a b : Literal} {d : Decimal}
    (h : op.apply scale a.value b.value = .ok d) (ha : a.places ≠ []) (hb : b.places ≠ []) :
    d.toLiteral.places ≠ [] := by
  have hvalue : ∀ l : Literal, l.places ≠ [] → l.value.exponent < 0 := by
    intro l hl
    have := List.length_pos_iff.2 hl
    simp only [Literal.value]
    omega
  have hexponent := Operator.exponent_apply_lt hscale (hvalue a ha) (hvalue b hb) h
  rw [← List.length_pos_iff, Decimal.length_places_toLiteral]
  omega

/-- The points of a text around a pair and in its literals. -/
theorem count_point_of_search {op : Operator} {s : Text} {o : Occurrence Pair}
    (h : (operation op).search s = some o) :
    s.count '.' = o.before.count '.' +
      ((if o.found.left.places = [] then 0 else 1) +
        (if o.found.right.places = [] then 0 else 1) + o.after.count '.') := by
  obtain ⟨hl, hr, ⟨u, rest, hgap⟩, hs⟩ := exists_of_search_operation h
  have hgapcount : o.found.gap.count '.' = 0 := by
    refine List.count_eq_zero.2 fun hmem ↦ ?_
    rcases Separator.mem_gap_operator hgap hmem with hb | hb
    · exact absurd hb (by decide)
    · exact Operator.symbol_ne_point op hb.symm
  rw [← hs]
  simp only [Pair.text, List.count_append, hl.count_point_text, hr.count_point_text, hgapcount]
  omega

/-- An operation does not make the excess greater. -/
theorem excess_collapse_le (hscale : -4 < scale) {op : Operator} {s t : Text}
    (h : (collapse scale op s).outcome = .ok t) : t.excess ≤ s.excess := by
  cases ho : (operation op).search s with
  | none =>
    rw [outcome_collapse_of_none ho] at h
    cases h
    exact Int.le_refl _
  | some o =>
    rw [outcome_collapse_of_search ho] at h
    obtain ⟨d, hd, rfl⟩ := Outcome.map_eq_ok_iff.1 h
    have hruns := digitRuns_replace_le d ho
    have hcount := count_point_of_search ho
    have hplaces : (if o.found.left.places = [] then 0 else 1) +
        (if o.found.right.places = [] then 0 else 1) ≤
          1 + if d.toLiteral.places = [] then 0 else 1 := by
      by_cases hleft : o.found.left.places = []
      · rw [if_pos hleft]
        split <;> omega
      · by_cases hright : o.found.right.places = []
        · rw [if_pos hright]
          split <;> omega
        · have hresult := places_apply_ne_nil hscale hd hleft hright
          simp [hleft, hright, hresult]
    simp only [Text.excess, Decimal.plain, List.count_append, d.isProper_toLiteral.count_point_text,
      hcount] at hruns ⊢
    omega

/-- Freeing a text keeps its excess. -/
theorem excess_unwrap (s : Text) : (unwrap s).excess = s.excess := by
  obtain ⟨x, y, hs, hxy⟩ := exists_append_unwrap s
  have hpoint : ∀ c, c ∈ x ∨ c ∈ y → c.isDigit = false ∧ c ≠ '.' := by
    intro c hc
    rcases hxy c hc with h | rfl | rfl
    · refine ⟨(isDigit_of_isSpace h).1, ?_⟩
      rintro rfl
      exact absurd h (by decide)
    · decide
    · decide
  have hx : x.count '.' = 0 := List.count_eq_zero.2 fun h ↦ (hpoint _ (.inl h)).2 rfl
  have hy : y.count '.' = 0 := List.count_eq_zero.2 fun h ↦ (hpoint _ (.inr h)).2 rfl
  have hruns := Text.digitRuns_of_append (t := unwrap s) (fun c h ↦ (hpoint c (.inl h)).1)
    fun c h ↦ (hpoint c (.inr h)).1
  conv => rhs; rw [hs]
  rw [Text.excess, Text.excess, hruns, List.count_append, List.count_append, hx, hy]
  simp

theorem excess_step_le (hscale : -4 < scale) {op : Operator} {s t : Text}
    (h : (step scale op s).outcome = .ok t) : t.excess ≤ s.excess := by
  rw [outcome_step] at h
  obtain ⟨u, hu, rfl⟩ := Outcome.map_eq_ok_iff.1 h
  rw [excess_unwrap]
  exact excess_collapse_le hscale hu

theorem excess_exhaust_le (hscale : -4 < scale) (op : Operator) (s : Text) {t : Text}
    (h : (exhaust scale op s).outcome = .ok t) : t.excess ≤ s.excess :=
  exhaust_induction (motive := fun u ↦ u.excess ≤ s.excess)
    (fun _ _ _ hu hstep ↦ Int.le_trans (excess_step_le hscale hstep) hu) h (Int.le_refl _)

theorem excess_exhaustAll_le (hscale : -4 < scale) {ops : List Operator} {s t : Text}
    (h : (exhaustAll scale ops s).outcome = .ok t) : t.excess ≤ s.excess :=
  exhaustAll_induction (motive := fun u ↦ u.excess ≤ s.excess)
    (fun _ _ _ hu hstep ↦ Int.le_trans (excess_step_le hscale hstep) hu) h (Int.le_refl _)

end Flat

/-- A text with negative excess is no number. -/
theorem conclude_ne_ok_of_excess {scale : Int} {s : Text} (h : s.excess < 0) (a : Answer) :
    conclude scale s ≠ .ok a := by
  intro ha
  obtain ⟨l, hl⟩ := exists_ofText?_of_conclude ha
  obtain ⟨hproper, rfl⟩ := Literal.ofText?_eq_some_iff.1 hl
  have := hproper.excess_text_nonneg
  omega

/-! ## Rows -/

namespace Row

variable {scale : Int} {op : Operator}

/-- All literals of a row have places. -/
def AllPlaced (r : Row Operand) : Prop :=
  r.first.1.places ≠ [] ∧ ∀ p ∈ r.rest, p.2.1.places ≠ []

/-- Where all literals have places, results have some too. -/
theorem AllPlaced.collapse? (hscale : -4 < scale) {x : Operand} {rest : List (Joint × Operand)}
    {r : Row Operand} (hr : AllPlaced ⟨x, rest⟩)
    (h : Row.collapse? (Operand.apply scale op) op x rest = some (.ok r)) : r.AllPlaced := by
  induction rest generalizing x r with
  | nil => cases h
  | cons p rest ih =>
    obtain ⟨j, y⟩ := p
    obtain ⟨hx, hrest⟩ := hr
    obtain ⟨hy, hrest⟩ := List.forall_mem_cons.1 hrest
    rcases collapse?_cons_eq_ok h with ⟨-, z, hz, rfl⟩ | ⟨-, r', hr', rfl⟩
    · obtain ⟨d, hd, rfl⟩ := Outcome.map_eq_ok_iff.1 hz
      exact ⟨Flat.places_apply_ne_nil hscale hd hx hy, hrest⟩
    · obtain ⟨hfirst, hrest'⟩ := ih ⟨hy, hrest⟩ hr'
      exact ⟨hx, List.forall_mem_cons.2 ⟨hfirst, hrest'⟩⟩

end Row
end Reckon
