import Reckon.Proofs.Course

/-!
# What stands in the journal of an evaluation

The journal of two computations after one another is that of the first and, if the first ends well,
that of the second (`Traced.mem_journal_bind`).  From this it is read off, computation by
computation, which events an evaluation writes down: a flat reduction writes only its steps
(`Flat.isStep_of_mem_journal_reduce`), a pass adds the groups that it replaces, each with what it is
reduced to (`Nested.mem_journal_pass`), and the loop over the passes adds the passes.

So a step in the journal of an evaluation belongs to the reduction of a group or of what the passes
leave (`exists_reduce_of_isStep_mem_journal`), and a group in it was reduced to the text that stands
beside it, whether or not the evaluation came to a value (`outcome_of_grouped_mem_journal`).  That
an evaluation failed is written down when it did, with the expression itself
(`failed_mem_journal_evaluate_iff`).
-/

set_option autoImplicit false

namespace Reckon

variable {α : Type} {scale : Int}

/-! ## Flat reductions -/

/-- Whether an event is a step of a flat reduction. -/
def Event.isStep : Event → Bool
  | .collapsed _ _ | .unwrapped _ => true
  | .grouped _ _ | .passed _ _ _ | .failed _ _ => false

namespace Flat

variable {op : Operator} {s : Text} {e : Event}

theorem isStep_of_mem_journal_step (h : e ∈ (step scale op s).journal) : e.isStep = true := by
  rcases step_cases scale op s with ⟨-, hstep⟩ | ⟨fault, hstep⟩ | ⟨o, d, -, -, hstep⟩
  · rw [hstep, List.mem_singleton] at h
    rw [h]
    rfl
  · rw [hstep] at h
    cases h
  · rw [hstep] at h
    rcases List.mem_cons.1 h with rfl | h
    · rfl
    · rw [List.mem_singleton.1 h]
      rfl

/-- A flat reduction writes down nothing but its steps. -/
theorem isStep_of_mem_journal_reduce (h : e ∈ (reduce scale s).journal) : e.isStep = true := by
  obtain ⟨-, op, t, -, he⟩ := mem_journal_reduce_iff.1 h
  exact isStep_of_mem_journal_step he

/-- What a step frees is what its operation has left. -/
theorem unwrapped_mem_journal_step_iff {t : Text} :
    .unwrapped t ∈ (step scale op s).journal ↔ (collapse scale op s).outcome = .ok t := by
  rcases step_cases scale op s with ⟨hsearch, hstep⟩ | ⟨fault, hstep⟩ | ⟨o, d, ho, hd, hstep⟩
  · rw [hstep, outcome_collapse_of_none hsearch]
    simp [eq_comm]
  · have hcollapse : (collapse scale op s).outcome = .error fault := by
      have houtcome := @outcome_step scale op s
      rw [hstep] at houtcome
      exact Outcome.map_eq_error_iff.1 houtcome.symm
    rw [hstep, hcollapse]
    simp
  · rw [hstep, outcome_collapse_of_search ho, hd]
    simp [Except.map, eq_comm]

end Flat

/-! ## Passes -/

namespace Nested

variable {s : Text} {e : Event}

/-- An event is written down when a group is replaced: a step of its reduction, or at last the group
with what it is reduced to. -/
def IsEventOf (scale : Int) (group : Text) (e : Event) : Prop :=
  e ∈ (Flat.reduce scale group).journal ∨
    ∃ result, e = .grouped group result ∧ (Flat.reduce scale group).outcome = .ok result

theorem mem_journal_replaceGroups {ps : List (Char ⊕ Text)}
    (h : e ∈ (replaceGroups scale ps).journal) :
    ∃ group, Sum.inr group ∈ ps ∧ IsEventOf scale group e := by
  induction ps with
  | nil => cases h
  | cons piece ps ih =>
    have hrest : e ∈ (replaceGroups scale ps).journal →
        ∃ group, Sum.inr group ∈ piece :: ps ∧ IsEventOf scale group e := by
      intro h
      obtain ⟨group, hmem, he⟩ := ih h
      exact ⟨group, List.mem_cons_of_mem _ hmem, he⟩
    cases piece with
    | inl c =>
      rw [replaceGroups, Traced.mem_journal_bind] at h
      rcases h with h | ⟨t, -, h⟩
      · exact hrest h
      · cases h
    | inr group =>
      rw [replaceGroups, Traced.mem_journal_bind] at h
      rcases h with h | ⟨result, hresult, h⟩
      · exact ⟨group, List.mem_cons_self, .inl h⟩
      · rw [Traced.mem_journal_bind, Traced.journal_record, List.mem_singleton] at h
        rcases h with rfl | ⟨-, -, h⟩
        · exact ⟨group, List.mem_cons_self, .inr ⟨result, rfl, hresult⟩⟩
        · rw [Traced.mem_journal_bind] at h
          rcases h with h | ⟨t, -, h⟩
          · exact hrest h
          · cases h

/-- A pass writes down the events of the groups that it replaces. -/
theorem mem_journal_pass (h : e ∈ (pass scale s).journal) :
    ∃ group, IsEnclosed group ∧ IsEventOf scale group e := by
  obtain ⟨group, hmem, he⟩ := mem_journal_replaceGroups h
  obtain ⟨t, rest, hscan⟩ := Group.pattern.exists_scan?_of_mem_pieces hmem
  exact ⟨group, isEnclosed_of_scan? hscan, he⟩

/-- The group at the head of a text is among them. -/
theorem mem_journal_pass_of_scan? {group rest : Text} (hscan : Group.scan? s = some (group, rest))
    (h : IsEventOf scale group e) : e ∈ (pass scale s).journal := by
  rw [pass, Group.pattern.pieces_of_scan? hscan, replaceGroups, Traced.mem_journal_bind]
  refine h.imp id ?_
  rintro ⟨result, rfl, hresult⟩
  exact ⟨result, hresult, Traced.mem_journal_bind.2 (.inl List.mem_cons_self)⟩

/-- A pass that changes nothing is the last one. -/
theorem resolveFrom_of_same (number : Nat) (h : (pass scale s).outcome = .ok s) :
    resolveFrom scale number s = pass scale s := by
  rw [resolveFrom]
  split
  · next hpass => rw [hpass] at h; cases h
  · next t hpass =>
    rw [hpass] at h
    cases h
    rw [dif_pos rfl, hpass]

/-- A pass that changes the text is noted, and others follow. -/
theorem journal_resolveFrom_of_ne (number : Nat) {t : Text} (h : (pass scale s).outcome = .ok t)
    (hne : t ≠ s) :
    (resolveFrom scale number s).journal =
      (pass scale s).journal ++
        .passed number s t :: (resolveFrom scale (number + 1) t).journal := by
  rw [resolveFrom_eq_bind, Traced.journal_bind_of_ok h, if_neg hne]
  rfl

/-- The journal of the passes is that of the first one, the note that it changed the text, if it
did, and the journal of those that follow. -/
theorem mem_journal_resolveFrom {number : Nat} :
    e ∈ (resolveFrom scale number s).journal ↔
      e ∈ (pass scale s).journal ∨
        ∃ t, (pass scale s).outcome = .ok t ∧ t ≠ s ∧
          (e = .passed number s t ∨ e ∈ (resolveFrom scale (number + 1) t).journal) := by
  rw [resolveFrom]
  split
  · next h => simp [h]
  · next t h =>
    split
    · next hts => simp [h, hts]
    · next hts => simp [h, hts]

/-- The passes write down the events of the groups that they replace, and the passes. -/
theorem isEventOf_or_passed_of_mem_journal {number : Nat} {s : Text}
    (h : e ∈ (resolveFrom scale number s).journal) :
    (∃ group, IsEnclosed group ∧ IsEventOf scale group e) ∨
      ∃ n before after, e = .passed n before after := by
  rcases mem_journal_resolveFrom.1 h with h | ⟨t, ht, hne, rfl | h⟩
  · exact .inl (mem_journal_pass h)
  · exact .inr ⟨number, s, t, rfl⟩
  · exact isEventOf_or_passed_of_mem_journal h
termination_by s.count '('
decreasing_by exact count_pass_lt ht hne

end Nested

/-! ## Evaluations -/

open Nested

variable {s : Text} {e : Event}

theorem Traced.mem_journal_noteFailure_iff {x : Traced α} :
    e ∈ (x.noteFailure s).journal ↔
      e ∈ x.journal ∨
        ∃ fault, x.outcome = .error fault ∧ fault.isVerdict = true ∧
          e = .failed s fault.message := by
  unfold noteFailure
  split
  · next h => simp [h]
  · next fault h =>
    split
    · next hverdict => simp [h, hverdict]
    · next hverdict => simp [h, hverdict]

/-- The journal of an evaluation is that of the passes and that of reducing what they leave, and in
the end the note that the evaluation failed, if it did. -/
theorem mem_journal_evaluate_iff :
    e ∈ (evaluate scale s).journal ↔
      e ∈ (resolve scale s).journal ∨
        (∃ t, (resolve scale s).outcome = .ok t ∧ e ∈ (Flat.reduce scale t).journal) ∨
        ∃ fault, (evaluate scale s).outcome = .error fault ∧ fault.isVerdict = true ∧
          e = .failed s fault.message := by
  rw [evaluate, Traced.mem_journal_noteFailure_iff, Traced.outcome_noteFailure,
    Traced.mem_journal_bind, Nested.reduce, Traced.mem_journal_bind]
  simp only [Traced.journal_ofExcept, List.not_mem_nil, and_false, exists_false, or_false, or_assoc]

/-- A step that an evaluation writes down is one of reducing a group, or what the passes leave. -/
theorem exists_reduce_of_isStep_mem_journal (he : e.isStep = true)
    (h : e ∈ (evaluate scale s).journal) :
    ∃ t, (IsEnclosed t ∨ (resolve scale s).outcome = .ok t) ∧
      e ∈ (Flat.reduce scale t).journal := by
  rcases mem_journal_evaluate_iff.1 h with h | ⟨t, ht, h⟩ | ⟨fault, -, -, rfl⟩
  · rcases isEventOf_or_passed_of_mem_journal h with
      ⟨group, hgroup, h | ⟨result, rfl, -⟩⟩ | ⟨n, before, after, rfl⟩
    · exact ⟨group, .inl hgroup, h⟩
    · cases he
    · cases he
  · exact ⟨t, .inr ht, h⟩
  · cases he

/-- Each group that an evaluation replaces was reduced to what is written down. -/
theorem outcome_of_grouped_mem_journal {group result : Text}
    (h : .grouped group result ∈ (evaluate scale s).journal) :
    IsEnclosed group ∧ (Flat.reduce scale group).outcome = .ok result := by
  rcases mem_journal_evaluate_iff.1 h with h | ⟨t, -, h⟩ | ⟨fault, -, -, heq⟩
  · rcases isEventOf_or_passed_of_mem_journal h with
      ⟨group', hgroup, h | ⟨result', heq, hresult⟩⟩ | ⟨n, before, after, heq⟩
    · cases Flat.isStep_of_mem_journal_reduce h
    · cases heq
      exact ⟨hgroup, hresult⟩
    · cases heq
  · cases Flat.isStep_of_mem_journal_reduce h
  · cases heq

/-- That an evaluation failed is written down exactly when it did, about the expression itself, and
with the message of the fault.  A fault that is no verdict on the expression is left out. -/
theorem failed_mem_journal_evaluate_iff {t message : Text} :
    .failed t message ∈ (evaluate scale s).journal ↔
      t = s ∧ ∃ fault, (evaluate scale s).outcome = .error fault ∧ fault.isVerdict = true ∧
        message = fault.message := by
  rw [mem_journal_evaluate_iff]
  constructor
  · rintro (h | ⟨u, -, h⟩ | ⟨fault, hfault, hverdict, heq⟩)
    · rcases isEventOf_or_passed_of_mem_journal h with
        ⟨group, -, h | ⟨result, heq, -⟩⟩ | ⟨n, before, after, heq⟩
      · cases Flat.isStep_of_mem_journal_reduce h
      · cases heq
      · cases heq
    · cases Flat.isStep_of_mem_journal_reduce h
    · cases heq
      exact ⟨rfl, fault, hfault, hverdict, rfl⟩
  · rintro ⟨rfl, fault, hfault, hverdict, rfl⟩
    exact .inr (.inr ⟨fault, hfault, hverdict, rfl⟩)

/-- What the first pass writes down stands in the journal of the evaluation. -/
theorem mem_journal_evaluate_of_pass (h : e ∈ (pass scale s).journal) :
    e ∈ (evaluate scale s).journal :=
  mem_journal_evaluate_iff.2 (.inl (mem_journal_resolveFrom.2 (.inl h)))

end Reckon
