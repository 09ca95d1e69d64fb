import Reckon.Proofs.Parentheses.Replacement
import Reckon.Proofs.Step

/-!
# Characters that no rule is about

A letter, a comma, an underscore or a digit outside ASCII has no place in an expression, and yet the
check on a flat expression rejects it only where it stands alone between two numbers.  Everywhere
else it is simply left where it is: operations replace literals and operators, freeing a text takes
away spaces and parentheses, and such a *stray* (`isStray`) is none of these.

So the strays of a text are the strays of whatever it is reduced to (`strays_of_outcome_reduce`),
the same ones in the same order.  Since a number has none, a text with a stray in it never has a
value (`exists_fault_of_stray`).
-/

set_option autoImplicit false

namespace Reckon

/-- Whether no rule is about a character: it has no place in arithmetic, and is neither a space nor
a parenthesis. -/
def isStray (c : Char) : Bool := Separator.isForeign c && !Flat.isEdge c

/-- The strays of a text. -/
def strays (s : Text) : Text := s.filter isStray

theorem isStray_eq_true_iff {c : Char} :
    isStray c = true ↔ Separator.isForeign c = true ∧ Flat.isEdge c = false := by
  simp [isStray]

theorem strays_cons (c : Char) (s : Text) : strays (c :: s) = strays [c] ++ strays s :=
  List.filter_append [c] s

theorem strays_append (s t : Text) : strays (s ++ t) = strays s ++ strays t :=
  List.filter_append s t

/-- Parentheses are no strays. -/
theorem strays_enclosed (s : Text) : strays ('(' :: (s ++ [')'])) = strays s := by
  rw [strays_cons, strays_append, show strays ['('] = [] by decide, show strays [')'] = [] by decide,
    List.nil_append, List.append_nil]

theorem strays_text {l : Literal} (hl : l.IsProper) : strays l.text = [] := by
  refine List.filter_eq_nil_iff.2 fun c hc hstray ↦ ?_
  exact Bool.eq_false_iff.1 (Flat.isForeign_of_mem_text hl hc) (isStray_eq_true_iff.1 hstray).1

/-! ## What is kept -/

variable {scale : Int}

theorem Flat.strays_of_step {op : Operator} {s t : Text}
    (h : (Flat.step scale op s).outcome = .ok t) : strays t = strays s := by
  have hreplace : ∀ c, isStray c = true → Separator.isForeign c = true ∧ Text.isBlank c = false := by
    intro c hc
    obtain ⟨hforeign, hedge⟩ := isStray_eq_true_iff.1 hc
    rw [isEdge, Bool.or_eq_false_iff] at hedge
    exact ⟨hforeign, Bool.eq_false_iff.2 fun hb ↦
      Bool.eq_false_iff.1 hedge.1 (Text.isSpace_of_isBlank hb)⟩
  have hunwrap : ∀ u : Text, strays (Flat.unwrap u) = strays u :=
    filter_unwrap fun c hc ↦ (isStray_eq_true_iff.1 hc).2
  rcases eq_unwrap_of_step h with ⟨-, rfl⟩ | ⟨o, d, ho, -, rfl⟩
  · exact hunwrap s
  · exact (hunwrap _).trans (filter_replace hreplace d ho)

theorem Flat.strays_of_reduce {s t : Text} (h : (Flat.reduce scale s).outcome = .ok t) :
    strays t = strays s := by
  have hkept : ∀ op u v, strays u = strays s → (Flat.step scale op u).outcome = .ok v →
      strays v = strays s := by
    intro op u v hu hv
    rw [strays_of_step hv, hu]
  exact reduce_induction hkept h rfl

/-- What is written in the place of a group has the strays of the group. -/
theorem Nested.Forest.strays_of_flatten {f : Forest} {t : Text} (h : f.flatten scale = .ok t) :
    strays t = strays f.text := by
  induction f generalizing t with
  | nil =>
    cases h
    rfl
  | char c rest ih =>
    obtain ⟨u, hu, rfl⟩ := Outcome.map_eq_ok_iff.1 h
    rw [text, strays_cons, strays_cons c rest.text, ih hu]
  | group inner rest ihinner ihrest =>
    obtain ⟨result, hresult, h⟩ := Outcome.bind_eq_ok_iff.1 h
    obtain ⟨u, hu, henclosed⟩ := Outcome.bind_eq_ok_iff.1 hresult
    obtain ⟨v, hv, rfl⟩ := Outcome.map_eq_ok_iff.1 h
    have hgroup : strays result = strays inner.text := by
      rw [Flat.strays_of_reduce henclosed, strays_enclosed, ihinner hu]
    have htext : (group inner rest).text = ('(' :: (inner.text ++ [')'])) ++ rest.text := by
      simp [text]
    rw [htext, strays_append, strays_append, hgroup, strays_enclosed, ihrest hv]

/-- A text is reduced to one with the same strays in the same order. -/
theorem strays_of_outcome_reduce {s t : Text} (h : (Nested.reduce scale s).outcome = .ok t) :
    strays t = strays s := by
  rw [Nested.outcome_reduce] at h
  obtain ⟨u, hu, ht⟩ := Outcome.bind_eq_ok_iff.1 h
  have hflatten := Nested.Forest.strays_of_flatten (Nested.outcome_resolve_eq_ok_iff.1 hu)
  rw [Nested.Forest.text_ofText] at hflatten
  rw [Flat.strays_of_reduce ht, hflatten]

/-! ## Evaluations -/

/-- What has a value has no strays. -/
theorem strays_eq_nil_of_outcome_evaluate {s : Text} {a : Answer}
    (h : (evaluate scale s).outcome = .ok a) : strays s = [] := by
  rw [outcome_evaluate] at h
  obtain ⟨t, ht, ha⟩ := Outcome.bind_eq_ok_iff.1 h
  obtain ⟨l, hl⟩ := exists_ofText?_of_conclude ha
  obtain ⟨hproper, rfl⟩ := Literal.ofText?_eq_some_iff.1 hl
  rw [← strays_of_outcome_reduce ht, strays_text hproper]

/-- **A text with a stray in it has no value**, wherever the stray stands and whatever the scale is.
Unless its evaluation comes to another fault before that, it ends with a text that has all the
strays in it, and with the fault that this is no number. -/
theorem exists_fault_of_stray {s : Text} (h : ∃ c ∈ s, isStray c = true) (scale : Int) :
    (∃ e, (evaluate scale s).outcome = .error e) ∧
      ∀ t, (Nested.reduce scale s).outcome = .ok t →
        strays t = strays s ∧ (evaluate scale s).outcome = .error (.notNumeral t) := by
  have hstrays : strays s ≠ [] := by
    obtain ⟨c, hc, hstray⟩ := h
    exact List.ne_nil_of_mem (List.mem_filter.2 ⟨hc, hstray⟩)
  have hreduced : ∀ t, (Nested.reduce scale s).outcome = .ok t →
      strays t = strays s ∧ (evaluate scale s).outcome = .error (.notNumeral t) := by
    intro t ht
    have hsame := strays_of_outcome_reduce ht
    have hliteral : Literal.ofText? t = none := by
      refine Literal.ofText?_eq_none_iff.2 ?_
      rintro l hl rfl
      exact hstrays (hsame ▸ strays_text hl)
    refine ⟨hsame, ?_⟩
    rw [outcome_evaluate, ht, Except.bind, conclude, hliteral]
  refine ⟨?_, hreduced⟩
  cases ht : (Nested.reduce scale s).outcome with
  | ok t => exact ⟨_, (hreduced t ht).2⟩
  | error e => exact ⟨e, by rw [outcome_evaluate, ht]; rfl⟩

/-- The unit behind a group stays where it is when the group is worked off. -/
theorem exists_fault_of_stray_unit :
    (∃ c ∈ "(2 + 3)m".toList, isStray c = true) ∧
      (evaluate 2 "(2 + 3)m".toList).outcome = .error (.notNumeral "5m".toList) := by
  have hstray : ∃ c ∈ "(2 + 3)m".toList, isStray c = true :=
    ⟨'m', by decide, by decide⟩
  have hreduce : (Nested.reduce 2 "(2 + 3)m".toList).outcome = .ok "5m".toList := by
    refine Nested.outcome_reduce_of_within 9 ?_
    decide +kernel
  exact ⟨hstray, ((exists_fault_of_stray hstray 2).2 _ hreduce).2⟩

end Reckon
